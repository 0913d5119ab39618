import Handheld.Proofs.Ppu.Guise

/-!
# The two outputs do not see each other's state

Monochrome output draws tiles of the first bank through BGP, OBP0 and OBP1; color output draws tiles
of both banks through palette RAM. What only the other output uses stays in memory and shows nowhere:
not in the picture, and not in the timing, which the order and the number of sprites decide.

* `Unseen`: a way in which displays may differ so that no dot can tell; `Unseen.tick`, `Unseen.step`:
  time keeps the difference, with the same signals.
* `MonochromeTwins`, `ColorTwins`: two displays that differ in what their output does not use.
* `monochromeTwins_unseen`, `colorTwins_unseen`: no dot can tell twins apart.
* `MonochromeTwins.perform`, `ColorTwins.perform`: every operation keeps twins.
* `outputs_apart`: twins show, report and request the same, and differ nowhere else, ever after.
-/

namespace Handheld.Ppu

variable {p q : Ppu}

/-- The ports of two palette memories stand at the same cell, and the first `n` cells agree. -/
structure PaletteRam.SameBelow (n : Nat) (a b : PaletteRam) : Prop where
  index : b.index = a.index
  cells : ∀ (i : Nat) (hi : i < 0x40), i < n → b.cells[i] = a.cells[i]

namespace PaletteRam.SameBelow

variable {n : Nat} {a b : PaletteRam}

theorem color (h : SameBelow n a b) {palette number : Nat} (hn : n ≤ 0x40)
    (hlt : offset palette number + 1 < n) : b.color palette number = a.color palette number := by
  have hlow : offset palette number % 0x40 = offset palette number := Nat.mod_eq_of_lt (by omega)
  have hhigh : (offset palette number + 1) % 0x40 = offset palette number + 1 :=
    Nat.mod_eq_of_lt (by omega)
  unfold PaletteRam.color
  simp only [hlow, hhigh, h.cells _ (by omega) hlt, h.cells _ (by omega) (Nat.lt_of_succ_lt hlt)]

theorem writeIndex (h : SameBelow n a b) (v : UInt8) :
    SameBelow n (a.writeIndex v) (b.writeIndex v) :=
  ⟨rfl, h.cells⟩

/-- A store hits the same cell of both. -/
theorem writeData (h : SameBelow n a b) (v : UInt8) :
    SameBelow n (a.writeData v) (b.writeData v) := by
  have hplace : b.place = a.place := by
    unfold place
    simp only [h.index]
  refine ⟨congrArg nextIndex h.index, ?_⟩
  intro i hi hn
  simp only [PaletteRam.writeData, hplace]
  rw [Vector.getElem_set, Vector.getElem_set, h.cells i hi hn]

theorem setPalette (h : SameBelow n a b) (palette : Nat) (colors : Vector UInt16 4) :
    SameBelow n (a.setPalette palette colors) (b.setPalette palette colors) := by
  refine ⟨h.index, ?_⟩
  intro i hi hn
  simp only [PaletteRam.setPalette, Vector.getElem_mapFinIdx, h.cells i hi hn]

end PaletteRam.SameBelow

/-- **Displays that show and do the same**: the picture, the place in the frame, the phase, and what
any number of dots requests and reports. -/
structure SameOutput (p q : Ppu) : Prop where
  frame : q.frame = p.frame
  frames : q.frames = p.frames
  ly : q.ly = p.ly
  dot : q.dot = p.dot
  mode : q.mode = p.mode
  transferDots : q.transferDots = p.transferDots
  window : q.window = p.window
  signals : ∀ n, (q.step n).value.2 = (p.step n).value.2

/-- **A difference in paint that no dot can tell**: it goes wherever the display goes, and decides
neither which sprite is in front nor any pixel of a line. -/
structure Unseen (T : Ppu → Ppu → Prop) : Prop where
  paint {p q : Ppu} (h : T p q) : q = p.withPaint q.paint
  follow {p q p' : Ppu} (h : T p q) (hs : SameSetting p p') : T p' (p'.withPaint q.paint)
  order {p q : Ppu} (h : T p q) : (p.withPaint q.paint).drawsByIndex = p.drawsByIndex
  recolors {p q : Ppu} (h : T p q) : Recolors Eq p { p.guise with toPaint := q.paint }

namespace Unseen

variable {T : Ppu → Ppu → Prop} (hT : Unseen T) (h : T p q)

include hT h

/-- **One dot keeps the difference**, and signals the same of both. -/
theorem tick : T p.tick.value.1 q.tick.value.1 ∧ q.tick.value.2 = p.tick.value.2 := by
  have htick := tick_paint q.paint (hT.order h) ((hT.recolors h).drawLine rfl)
  rw [← hT.paint h] at htick
  rw [htick]
  exact ⟨hT.follow h (tick_elapses p).setting, rfl⟩

theorem step (n : Nat) :
    T (p.step n).value.1 (q.step n).value.1 ∧ (q.step n).value.2 = (p.step n).value.2 := by
  refine step_both (fun _ _ => hT.tick) h ?_ n
  rw [hT.paint h]
  rfl

/-- An access that neither looks at the paint nor touches it. -/
theorem access (f : Ppu → Ppu) (hs : ∀ p, SameSetting p (f p))
    (hf : ∀ p c, f (p.withPaint c) = (f p).withPaint c) : T (f p) (f q) := by
  rw [hT.paint h, hf]
  exact hT.follow h (hs p)

theorem writeLcdc (v : UInt8) : T (p.writeLcdc v).value (q.writeLcdc v).value :=
  hT.access h (fun p => (p.writeLcdc v).value) (fun p => writeLcdc_setting p v)
    fun p c => writeLcdc_paint p c v

theorem writeOam (addr : UInt16) (v : UInt8) : T (p.writeOam addr v) (q.writeOam addr v) := by
  refine hT.access h (·.writeOam addr v) (fun p => ?_) (fun p c => ?_)
  · obtain ⟨oam, ho⟩ := writeOam_eq p addr v
    simp only [ho]
    exact ⟨rfl, rfl, rfl⟩
  · have hfree : (p.withPaint c).oamFree = p.oamFree := rfl
    simp only [Ppu.writeOam, hfree]
    split
    · split <;> rfl
    · rfl

theorem same : SameOutput p q := by
  have hsignals (n : Nat) := (hT.step h n).2
  rw [hT.paint h] at hsignals ⊢
  exact ⟨rfl, rfl, rfl, rfl, rfl, rfl, rfl, hsignals⟩

end Unseen

/-- **Displays that differ in what monochrome output does not use**: the second bank of tiles, OPRI,
and palette RAM but for the palettes that shades are looked up in, which are none on monochrome
hardware. -/
structure MonochromeTwins (p q : Ppu) : Prop where
  output : p.colorOutput = false
  rest : ∃ vram opri background objects,
    q = { p with vram, controls.opri := opri, background, objects }
  tiles : ∀ offset, q.vramByte false offset = p.vramByte false offset
  palettes : p.model = .color →
    p.background.SameBelow 0x08 q.background ∧ p.objects.SameBelow 0x10 q.objects

/-- **Displays that differ in what color output does not use**: the palette registers of monochrome
output. -/
structure ColorTwins (p q : Ppu) : Prop where
  output : p.colorOutput = true
  rest : ∃ bgp obp0 obp1,
    q = { p with controls.bgp := bgp, controls.obp0 := obp0, controls.obp1 := obp1 }

theorem MonochromeTwins.paint (h : MonochromeTwins p q) : q = p.withPaint q.paint := by
  obtain ⟨vram, opri, background, objects, rfl⟩ := h.rest
  rfl

theorem ColorTwins.paint (h : ColorTwins p q) : q = p.withPaint q.paint := by
  obtain ⟨bgp, obp0, obp1, rfl⟩ := h.rest
  rfl

/-- Wherever time takes a display, its twin is there in the paint that it had. -/
theorem MonochromeTwins.follow (h : MonochromeTwins p q) {p' : Ppu} (hs : SameSetting p p') :
    MonochromeTwins p' (p'.withPaint q.paint) := by
  have hvram : p'.vram = p.vram := congrArg Paint.vram hs.paint
  have hbackground : p'.background = p.background := congrArg Paint.background hs.paint
  have hobjects : p'.objects = p.objects := congrArg Paint.objects hs.paint
  obtain ⟨vram, opri, background, objects, rfl⟩ := h.rest
  have hpaint : ({ p with vram, controls.opri := opri, background, objects } : Ppu).paint =
      { p'.paint with vram, opri, background, objects } := by
    rw [hs.paint]
    rfl
  rw [hpaint]
  refine ⟨hs.colorOutput.trans h.output, ⟨vram, opri, background, objects, rfl⟩, ?_, ?_⟩
  · intro offset
    have htiles := h.tiles offset
    unfold vramByte at htiles ⊢
    rw [hvram]
    exact htiles
  · intro hm
    rw [hbackground, hobjects]
    exact h.palettes (hs.model.symm.trans hm)

theorem ColorTwins.follow (h : ColorTwins p q) {p' : Ppu} (hs : SameSetting p p') :
    ColorTwins p' (p'.withPaint q.paint) := by
  obtain ⟨bgp, obp0, obp1, rfl⟩ := h.rest
  have hpaint : ({ p with
      controls.bgp := bgp, controls.obp0 := obp0, controls.obp1 := obp1 } : Ppu).paint =
      { p'.paint with bgp, obp0, obp1 } := by
    rw [hs.paint]
    rfl
  rw [hpaint]
  exact ⟨hs.colorOutput.trans h.output, ⟨bgp, obp0, obp1, rfl⟩⟩

/-- Second tiles, and palettes that no shade is looked up in, recolor nothing. -/
theorem MonochromeTwins.recolors (h : MonochromeTwins p q) :
    Recolors Eq p { p.guise with toPaint := q.paint } := by
  obtain ⟨hout, ⟨vram, opri, background, objects, rfl⟩, htiles, hpalettes⟩ := h
  refine ⟨?_, fun _ => ⟨rfl, rfl, rfl⟩, ?_, ?_⟩
  · intro upper offset hu
    cases upper with
    | false => exact htiles offset
    | true => exact absurd (hu rfl) (by rw [hout]; decide)
  · intro _ shade hlt
    cases hm : p.model with
    | mono =>
      obtain ⟨hb, ho⟩ := shades_mono hm shade
      have hg := shades_mono (p := p.withPaint
        { p.paint with vram, opri, background, objects }) hm shade
      exact ⟨hb.trans hg.1.symm, fun second => (ho second).trans (hg.2 second).symm⟩
    | color =>
      obtain ⟨hb, ho⟩ := shades_color hm shade
      have hg := shades_color (p := p.withPaint
        { p.paint with vram, opri, background, objects }) hm shade
      -- a shade stays within the palettes that both have
      obtain ⟨hback, hobj⟩ := hpalettes hm
      refine ⟨hb.trans (Eq.trans ?_ hg.1.symm),
        fun second => (ho second).trans (Eq.trans ?_ (hg.2 second).symm)⟩
      · refine (hback.color (by decide) ?_).symm
        unfold PaletteRam.offset
        omega
      · have := Bool.toNat_le second
        refine (hobj.color (by decide) ?_).symm
        unfold PaletteRam.offset
        omega
  · intro hc
    exact absurd hc (by rw [hout]; decide)

/-- Color output looks no shade up. -/
theorem ColorTwins.recolors (h : ColorTwins p q) :
    Recolors Eq p { p.guise with toPaint := q.paint } := by
  obtain ⟨hout, bgp, obp0, obp1, rfl⟩ := h
  refine ⟨fun _ _ _ => rfl, ?_, ?_, fun _ _ _ => ⟨rfl, rfl⟩⟩
  · intro hc
    exact absurd hc (by rw [hout]; decide)
  · intro hc
    exact absurd hc (by rw [hout]; decide)

/-- **No dot tells twins on monochrome output apart.** -/
theorem monochromeTwins_unseen : Unseen MonochromeTwins where
  paint := MonochromeTwins.paint
  follow h hs := h.follow hs
  recolors := MonochromeTwins.recolors
  order {p q} h := by
    have hout : (p.withPaint q.paint).colorOutput = false := h.output
    unfold drawsByIndex
    rw [hout, h.output, Bool.false_and, Bool.false_and]

/-- **No dot tells twins on color output apart.** -/
theorem colorTwins_unseen : Unseen ColorTwins where
  paint := ColorTwins.paint
  follow h hs := h.follow hs
  recolors := ColorTwins.recolors
  order h := by
    obtain ⟨bgp, obp0, obp1, rfl⟩ := h.rest
    rfl

/-- The ports of palette RAM keep the palettes that both have. -/
theorem MonochromeTwins.writeColorPort (h : MonochromeTwins p q) (addr : UInt16) (v : UInt8) :
    MonochromeTwins (p.writeColorPort addr v) (q.writeColorPort addr v) := by
  obtain ⟨hout, ⟨vram, opri, background, objects, rfl⟩, htiles, hpalettes⟩ := h
  unfold Ppu.writeColorPort
  split
  case h_1 =>
    refine ⟨hout, ⟨_, _, _, _, rfl⟩, htiles, fun hm => ?_⟩
    exact ⟨(hpalettes hm).1.writeIndex v, (hpalettes hm).2⟩
  case h_2 =>
    refine ⟨hout, ⟨_, _, _, _, rfl⟩, htiles, fun hm => ?_⟩
    exact ⟨(hpalettes hm).1.writeData v, (hpalettes hm).2⟩
  case h_3 =>
    refine ⟨hout, ⟨_, _, _, _, rfl⟩, htiles, fun hm => ?_⟩
    exact ⟨(hpalettes hm).1, (hpalettes hm).2.writeIndex v⟩
  case h_4 =>
    refine ⟨hout, ⟨_, _, _, _, rfl⟩, htiles, fun hm => ?_⟩
    exact ⟨(hpalettes hm).1, (hpalettes hm).2.writeData v⟩
  all_goals exact ⟨hout, ⟨_, _, _, _, rfl⟩, htiles, hpalettes⟩

theorem MonochromeTwins.writeControl (h : MonochromeTwins p q) (addr : UInt16) (v : UInt8) :
    MonochromeTwins (p.writeControl addr v) (q.writeControl addr v) := by
  have hports := h.writeColorPort addr v
  obtain ⟨hout, ⟨vram, opri, background, objects, rfl⟩, htiles, hpalettes⟩ := h
  unfold Ppu.writeControl
  split
  case h_4 =>
    rw [compareLine_eq, compareLine_eq]
    exact ⟨hout, ⟨_, _, _, _, rfl⟩, htiles, hpalettes⟩
  case h_10 =>
    simp only
    split
    · exact hports
    · exact ⟨hout, ⟨_, _, _, _, rfl⟩, htiles, hpalettes⟩
  all_goals exact ⟨hout, ⟨_, _, _, _, rfl⟩, htiles, hpalettes⟩

theorem ColorTwins.writeControl (h : ColorTwins p q) (addr : UInt16) (v : UInt8) :
    ColorTwins (p.writeControl addr v) (q.writeControl addr v) := by
  obtain ⟨hout, bgp, obp0, obp1, rfl⟩ := h
  unfold Ppu.writeControl
  split
  case h_4 =>
    rw [compareLine_eq, compareLine_eq]
    exact ⟨hout, _, _, _, rfl⟩
  case h_10 =>
    simp only
    split
    · unfold Ppu.writeColorPort
      split <;> exact ⟨hout, _, _, _, rfl⟩
    · exact ⟨hout, _, _, _, rfl⟩
  all_goals exact ⟨hout, _, _, _, rfl⟩

/-- A byte stored in both leaves the first banks equal. -/
theorem MonochromeTwins.setVramByte (h : MonochromeTwins p q) (upper : Bool) (offset : Nat)
    (v : UInt8) : MonochromeTwins (p.setVramByte upper offset v) (q.setVramByte upper offset v) := by
  obtain ⟨hout, ⟨vram, opri, background, objects, rfl⟩, htiles, hpalettes⟩ := h
  refine ⟨hout, ⟨_, _, _, _, rfl⟩, fun other => ?_, hpalettes⟩
  have hsame := htiles other
  simp only [vramByte, Fin.getElem_fin] at hsame
  simp only [vramByte, Ppu.setVramByte, Fin.getElem_fin]
  rw [Vector.getElem_set, Vector.getElem_set, hsame]

theorem MonochromeTwins.writeVram (h : MonochromeTwins p q) (addr : UInt16) (v : UInt8) :
    MonochromeTwins (p.writeVram addr v) (q.writeVram addr v) := by
  have hset := h.setVramByte p.vramUpper addr.toNat v
  have hfree : q.vramFree = p.vramFree := by
    obtain ⟨_, _, _, _, rfl⟩ := h.rest
    rfl
  have hupper : q.vramUpper = p.vramUpper := by
    obtain ⟨_, _, _, _, rfl⟩ := h.rest
    rfl
  unfold Ppu.writeVram
  rw [hfree, hupper]
  split
  · exact hset
  · exact h

theorem ColorTwins.writeVram (h : ColorTwins p q) (addr : UInt16) (v : UInt8) :
    ColorTwins (p.writeVram addr v) (q.writeVram addr v) := by
  have hfree : q.vramFree = p.vramFree := by
    obtain ⟨_, _, _, rfl⟩ := h.rest
    rfl
  obtain ⟨hout, bgp, obp0, obp1, rfl⟩ := h
  unfold Ppu.writeVram
  rw [hfree]
  split <;> exact ⟨hout, _, _, _, rfl⟩

/-- **Every operation keeps twins on monochrome output.** -/
theorem MonochromeTwins.perform (h : MonochromeTwins p q) (op : Operation) :
    MonochromeTwins (p.perform op) (q.perform op) := by
  cases op with
  | run dots => exact (monochromeTwins_unseen.step h dots).1
  | port addr v =>
    show MonochromeTwins (p.writePort addr v).value (q.writePort addr v).value
    unfold writePort
    split
    · exact monochromeTwins_unseen.writeLcdc h v
    · exact h.writeControl addr v
  | vram addr v => exact h.writeVram addr v
  | moveVram upper offset v => exact h.setVramByte upper offset v
  | oam addr v => exact monochromeTwins_unseen.writeOam h addr v
  | vramBank | moveOam =>
    obtain ⟨hout, ⟨vram, opri, background, objects, rfl⟩, htiles, hpalettes⟩ := h
    exact ⟨hout, ⟨_, _, _, _, rfl⟩, htiles, hpalettes⟩
  | monochrome =>
    obtain ⟨-, ⟨vram, opri, background, objects, rfl⟩, htiles, hpalettes⟩ := h
    exact ⟨rfl, ⟨_, _, _, _, rfl⟩, htiles, hpalettes⟩
  | palettes palettes =>
    obtain ⟨-, ⟨vram, opri, background, objects, rfl⟩, htiles, hpalettes⟩ := h
    refine ⟨rfl, ⟨_, _, _, _, rfl⟩, htiles, fun hm => ⟨?_, ?_⟩⟩
    · exact (hpalettes hm).1.setPalette 0 palettes.background
    · exact ((hpalettes hm).2.setPalette 0 palettes.object0).setPalette 1 palettes.object1

/-- What the boot image does for a monochrome cartridge ends color output. -/
def Operation.keepsOutput : Operation → Bool
  | .monochrome | .palettes _ => false
  | _ => true

/-- **Every operation keeps twins on color output**, unless it ends that. -/
theorem ColorTwins.perform (h : ColorTwins p q) {op : Operation} (hop : op.keepsOutput = true) :
    ColorTwins (p.perform op) (q.perform op) := by
  cases op with
  | run dots => exact (colorTwins_unseen.step h dots).1
  | port addr v =>
    show ColorTwins (p.writePort addr v).value (q.writePort addr v).value
    unfold writePort
    split
    · exact colorTwins_unseen.writeLcdc h v
    · exact h.writeControl addr v
  | vram addr v => exact h.writeVram addr v
  | oam addr v => exact colorTwins_unseen.writeOam h addr v
  | vramBank | moveVram | moveOam =>
    obtain ⟨hout, bgp, obp0, obp1, rfl⟩ := h
    exact ⟨hout, _, _, _, rfl⟩
  | monochrome | palettes => exact absurd hop Bool.false_ne_true

/-- **Each output ignores the state of the other.** Two displays that differ only in what their
output does not use differ in nothing else after any time and accesses, and show, report and request
the same. -/
theorem outputs_apart (p q : Ppu) (ops : List Operation) :
    (MonochromeTwins p q →
      MonochromeTwins (ops.foldl perform p) (ops.foldl perform q) ∧
        SameOutput (ops.foldl perform p) (ops.foldl perform q)) ∧
    (ColorTwins p q → (∀ op ∈ ops, op.keepsOutput = true) →
      ColorTwins (ops.foldl perform p) (ops.foldl perform q) ∧
        SameOutput (ops.foldl perform p) (ops.foldl perform q)) := by
  constructor
  · intro h
    have hafter : MonochromeTwins (ops.foldl perform p) (ops.foldl perform q) :=
      List.foldl_rel h fun op _ _ _ htwins => htwins.perform op
    exact ⟨hafter, monochromeTwins_unseen.same hafter⟩
  · intro h hops
    have hafter : ColorTwins (ops.foldl perform p) (ops.foldl perform q) :=
      List.foldl_rel h fun op hop _ _ htwins => htwins.perform (hops op hop)
    exact ⟨hafter, colorTwins_unseen.same hafter⟩

/-- Another byte in the second bank, another OPRI, and other colors in palettes that no shade is looked
up in. -/
def tampered (p : Ppu) : Ppu :=
  { p with
    vram := p.vram.set 0x2010 0xFF
    controls.opri := 0
    background := { p.background with cells := p.background.cells.set 0x3F 0 }
    objects := { p.objects with cells := p.objects.cells.set 0x10 0 } }

theorem tampered_twins (h : p.colorOutput = false) : MonochromeTwins p p.tampered := by
  refine ⟨h, ⟨_, _, _, _, rfl⟩, ?_, fun _ => ⟨⟨rfl, ?_⟩, ⟨rfl, ?_⟩⟩⟩
  · intro offset
    simp only [vramByte, tampered, Fin.getElem_fin]
    refine Vector.getElem_set_ne (by decide) _ ?_
    unfold vramCell
    simp only [Bool.toNat_false]
    omega
  · intro i hi hn
    exact Vector.getElem_set_ne (by decide) hi (by omega)
  · intro i hi hn
    exact Vector.getElem_set_ne (by decide) hi (by omega)

/-- A display that runs a monochrome cartridge, tampered with, and one that draws in color, with other
palette registers. -/
theorem outputs_apart_boot :
    let gray : Ppu := ((Ppu.powerOn .color).handOver (some ⟨.replicate _ 0, .replicate _ 0,
      .replicate _ 0⟩)).value
    let bright : Ppu := ((Ppu.powerOn .color).handOver none).value
    let bright' : Ppu := { bright with controls.bgp := 0x1B, controls.obp1 := 0xE4 }
    let ops : List Operation := [.run 300, .port 0xFF69 5, .port 0xFF48 0x1B, .run 400]
    (MonochromeTwins gray gray.tampered ∧
        SameOutput (ops.foldl perform gray) (ops.foldl perform gray.tampered)) ∧
      ColorTwins bright bright' ∧
        SameOutput (ops.foldl perform bright) (ops.foldl perform bright') := by
  intro gray bright bright' ops
  have hgray : MonochromeTwins gray gray.tampered := tampered_twins rfl
  have hbright : ColorTwins bright bright' := ⟨rfl, _, _, _, rfl⟩
  have hops : ∀ op ∈ ops, op.keepsOutput = true := by
    intro op hop
    simp only [ops, List.mem_cons, List.not_mem_nil, or_false] at hop
    rcases hop with rfl | rfl | rfl | rfl <;> rfl
  exact ⟨⟨hgray, ((outputs_apart gray gray.tampered ops).1 hgray).2⟩, hbright,
    ((outputs_apart bright bright' ops).2 hbright hops).2⟩

end Handheld.Ppu
