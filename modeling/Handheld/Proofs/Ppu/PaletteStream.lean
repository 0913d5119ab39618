import Handheld.Proofs.Ppu.Memories

/-!
# Palette RAM as a stream

The index port of a palette memory says where the next byte of the data port goes. With bit 7 set
the bytes go to one cell after another, around the memory; with bit 7 clear all of them go to one
cell.

* `PaletteRam.Streamed`, `PaletteRam.Pinned`: what the two ways of sending leave in the memory.
* `foldl_streamed`, `foldl_pinned`: bytes sent one after another leave that.
* `Ppu.sends`: what a history of the display sends to a palette memory.
* `foldl_palettes`: whatever else happens to the display, its memory is what was sent to it.
* `palettes_stream`: so streams arrive, however they are interleaved.
-/

namespace Handheld.Ppu

namespace PaletteRam

variable {p q : PaletteRam} {s : Nat} {v : UInt8}

/-- The cell that a number names, counted around the memory. -/
def cell (p : PaletteRam) (n : Nat) : UInt8 := p.cells[n % 0x40]

theorem cell_congr (p : PaletteRam) {m n : Nat} (h : m % 0x40 = n % 0x40) :
    p.cell m = p.cell n := by
  unfold cell
  simp only [h]

theorem cell_writeData (p : PaletteRam) (v : UInt8) (n : Nat) :
    (p.writeData v).cell n = if p.index.toNat % 0x40 = n % 0x40 then v else p.cell n := by
  unfold cell writeData
  exact Vector.getElem_set p.place.isLt _

/-- The index byte of a stream on its way to a cell: bits 6 and 7 are set. -/
def streamIndex (s : Nat) : UInt8 := 0xC0 ||| UInt8.ofNat (s % 0x40)

theorem toNat_streamIndex (s : Nat) : (streamIndex s).toNat % 0x40 = s % 0x40 := by
  have hall : ∀ r : Fin 0x40, (0xC0 ||| UInt8.ofNat r.val).toNat % 0x40 = r.val := by
    decide +kernel
  exact hall ⟨s % 0x40, Nat.mod_lt _ (by decide)⟩

/-- The index moves on to the next cell, and from the last to the first. -/
theorem nextIndex_streamIndex (s : Nat) : nextIndex (streamIndex s) = streamIndex (s + 1) := by
  have hall : ∀ r : Fin 0x40,
      nextIndex (0xC0 ||| UInt8.ofNat r.val) = 0xC0 ||| UInt8.ofNat ((r.val + 1) % 0x40) := by
    decide +kernel
  have hnext := hall ⟨s % 0x40, Nat.mod_lt _ (by decide)⟩
  rw [Nat.mod_add_mod] at hnext
  exact hnext

theorem writeIndex_stream (p : PaletteRam) (i : UInt8) :
    (p.writeIndex (0x80 ||| i)).index = streamIndex i.toNat := by
  have hall : ∀ i : UInt8, ((0x80 ||| i) &&& 0xBF) ||| 0x40 = streamIndex i.toNat :=
    forall_byte (by decide +kernel)
  exact hall i

theorem writeIndex_pinned (p : PaletteRam) {i : UInt8} (hi : i &&& 0x80 = 0) :
    (p.writeIndex i).index = 0x40 ||| (i &&& 0x3F) := by
  have hall : ∀ i : UInt8, i &&& 0x80 = 0 → (i &&& 0xBF) ||| 0x40 = 0x40 ||| (i &&& 0x3F) :=
    forall_byte (by decide +kernel)
  exact hall i hi

theorem toNat_pinnedIndex (i : UInt8) : (0x40 ||| (i &&& 0x3F)).toNat % 0x40 = i.toNat % 0x40 := by
  revert i
  exact forall_byte (by decide +kernel)

theorem nextIndex_pinned (i : UInt8) :
    nextIndex (0x40 ||| (i &&& 0x3F)) = 0x40 ||| (i &&& 0x3F) := by
  revert i
  exact forall_byte (by decide +kernel)

/-- **A stream in the memory**: the bytes `d` went to the cells from `s` on. -/
structure Streamed (before : PaletteRam) (s : Nat) (d : List UInt8) (after : PaletteRam) :
    Prop where
  index : after.index = 0xC0 ||| UInt8.ofNat ((s + d.length) % 0x40)
  sent : ∀ k (hk : k < d.length),
    (∀ k', k < k' → k' < d.length → (s + k') % 0x40 ≠ (s + k) % 0x40) → after.cell (s + k) = d[k]
  kept : ∀ n, (∀ k, k < d.length → (s + k) % 0x40 ≠ n % 0x40) → after.cell n = before.cell n

theorem foldl_streamed (hp : p.index = streamIndex s) (d : List UInt8) :
    Streamed p s d (d.foldl writeData p) := by
  induction d generalizing p s with
  | nil => exact ⟨hp, fun k hk => absurd hk (Nat.not_lt_zero k), fun n _ => rfl⟩
  | cons v rest ih =>
    have hnext : (p.writeData v).index = streamIndex (s + 1) := by
      rw [← nextIndex_streamIndex, ← hp]
      rfl
    have hwritten (n : Nat) : (p.writeData v).cell n =
        if s % 0x40 = n % 0x40 then v else p.cell n := by
      rw [cell_writeData, hp, toNat_streamIndex]
    have hrest := ih hnext
    have hshift (k : Nat) : s + (k + 1) = s + 1 + k := by omega
    constructor
    case index =>
      rw [List.length_cons, hshift]
      exact hrest.index
    case sent =>
      intro k hk hlater
      cases k with
      | zero =>
        -- no later byte reaches the cell of the first
        have hkept := hrest.kept s fun k hk => by
          have hapart := hlater (k + 1) (Nat.succ_pos k) (Nat.succ_lt_succ hk)
          rwa [hshift] at hapart
        exact hkept.trans ((hwritten s).trans (if_pos rfl))
      | succ k =>
        rw [hshift]
        apply hrest.sent k (Nat.lt_of_succ_lt_succ hk)
        intro k' hk' hlength
        have hapart := hlater (k' + 1) (Nat.succ_lt_succ hk') (Nat.succ_lt_succ hlength)
        rwa [hshift k, hshift k'] at hapart
    case kept =>
      intro n hmissed
      have hkept := hrest.kept n fun k hk => by
        have hapart := hmissed (k + 1) (Nat.succ_lt_succ hk)
        rwa [hshift] at hapart
      have hfirst := hmissed 0 (Nat.succ_pos _)
      exact hkept.trans ((hwritten n).trans (if_neg hfirst))

/-- **Bytes sent to one cell**: the bytes `d` all went to the cell that `i` names. -/
structure Pinned (before : PaletteRam) (i : UInt8) (d : List UInt8) (after : PaletteRam) :
    Prop where
  index : after.index = 0x40 ||| (i &&& 0x3F)
  sent : ∀ v, d.getLast? = some v → after.cell i.toNat = v
  kept : ∀ n, d = [] ∨ n % 0x40 ≠ i.toNat % 0x40 → after.cell n = before.cell n

theorem foldl_pinned {i : UInt8} (hp : p.index = 0x40 ||| (i &&& 0x3F)) (d : List UInt8) :
    Pinned p i d (d.foldl writeData p) := by
  induction d generalizing p with
  | nil => exact ⟨hp, fun v hv => (by cases hv), fun n _ => rfl⟩
  | cons v rest ih =>
    have hnext : (p.writeData v).index = 0x40 ||| (i &&& 0x3F) := by
      rw [← nextIndex_pinned, ← hp]
      rfl
    have hwritten (n : Nat) : (p.writeData v).cell n =
        if i.toNat % 0x40 = n % 0x40 then v else p.cell n := by
      rw [cell_writeData, hp, toNat_pinnedIndex]
    have hrest := ih hnext
    constructor
    case index => exact hrest.index
    case sent =>
      intro w hw
      cases rest with
      | nil =>
        obtain rfl : v = w := by simpa using hw
        exact (hwritten _).trans (if_pos rfl)
      | cons u rest => exact hrest.sent w (by simpa using hw)
    case kept =>
      intro n hmissed
      have hapart : n % 0x40 ≠ i.toNat % 0x40 := hmissed.resolve_left (List.cons_ne_nil v rest)
      exact (hrest.kept n (.inr hapart)).trans ((hwritten n).trans (if_neg (Ne.symm hapart)))

/-- A write to the index port or to the data port of a palette memory. -/
inductive Send where
  | index (v : UInt8)
  | data (v : UInt8)
  deriving DecidableEq

def receive (p : PaletteRam) : Send → PaletteRam
  | .index v => p.writeIndex v
  | .data v => p.writeData v

theorem foldl_receive (p : PaletteRam) (i : UInt8) (d : List UInt8) :
    (Send.index i :: d.map .data).foldl receive p = d.foldl writeData (p.writeIndex i) := by
  rw [List.foldl_cons, List.foldl_map]
  rfl

theorem receive_streamed (p : PaletteRam) (i : UInt8) (d : List UInt8) :
    Streamed p i.toNat d ((Send.index (0x80 ||| i) :: d.map .data).foldl receive p) := by
  rw [foldl_receive]
  have hstream := foldl_streamed (writeIndex_stream p i) d
  exact ⟨hstream.index, hstream.sent, hstream.kept⟩

theorem receive_pinned (p : PaletteRam) {i : UInt8} (hi : i &&& 0x80 = 0) (d : List UInt8) :
    Pinned p i d ((Send.index i :: d.map .data).foldl receive p) := by
  rw [foldl_receive]
  have hstream := foldl_pinned (writeIndex_pinned p hi) d
  exact ⟨hstream.index, hstream.sent, hstream.kept⟩

end PaletteRam

/-! ## On the display -/

/-- The layers of the picture, each with a palette memory. -/
inductive Layer where
  | background
  | objects

namespace Layer

def indexPort : Layer → UInt16
  | background => 0xFF68
  | objects => 0xFF6A

def dataPort : Layer → UInt16
  | background => 0xFF69
  | objects => 0xFF6B

end Layer

variable {p : Ppu}

/-- The palette memory of a layer. -/
def palettes (p : Ppu) : Layer → PaletteRam
  | .background => p.background
  | .objects => p.objects

theorem readPort_indexPort (hcolor : p.model = .color) (l : Layer) :
    p.readPort l.indexPort = (p.palettes l).index := by
  have hports : p.model.isColor = true := by rw [hcolor]; rfl
  cases l with
  | background => exact if_pos hports
  | objects => exact if_pos hports

theorem readPort_dataPort (hcolor : p.model = .color) (l : Layer) :
    p.readPort l.dataPort = (p.palettes l).cell (p.palettes l).index.toNat := by
  have hports : p.model.isColor = true := by rw [hcolor]; rfl
  cases l with
  | background => exact if_pos hports
  | objects => exact if_pos hports

/-- What a write to a port of the display sends to the palette memory of a layer. -/
def portSends (l : Layer) (addr : UInt16) (v : UInt8) : Option PaletteRam.Send :=
  if addr = l.indexPort then some (.index v)
  else if addr = l.dataPort then some (.data v)
  else none

/-- The palette memory of a layer once something may have been sent to it. -/
def PaletteRam.receive? (p : PaletteRam) (send : Option PaletteRam.Send) : PaletteRam :=
  send.elim p p.receive

theorem portSends_none {l : Layer} {addr : UInt16} (hindex : addr ≠ l.indexPort)
    (hdata : addr ≠ l.dataPort) (v : UInt8) : portSends l addr v = none :=
  (if_neg hindex).trans (if_neg hdata)

theorem writeColorPort_palettes (p : Ppu) (l : Layer) (addr : UInt16) (v : UInt8) :
    (p.writeColorPort addr v).palettes l = (p.palettes l).receive? (portSends l addr v) := by
  unfold writeColorPort
  split
  case h_6 h68 h69 h6A h6B _ =>
    have hnone : portSends l addr v = none := by
      cases l with
      | background => exact portSends_none h68 h69 v
      | objects => exact portSends_none h6A h6B v
    rw [hnone]
    rfl
  all_goals
    cases l with
    | background => rfl
    | objects => rfl

theorem writeControl_palettes (hcolor : p.model = .color) (l : Layer) (addr : UInt16) (v : UInt8) :
    (p.writeControl addr v).palettes l = (p.palettes l).receive? (portSends l addr v) := by
  unfold writeControl
  split
  case h_10 =>
    rw [if_pos (by rw [hcolor]; rfl)]
    exact writeColorPort_palettes p l addr v
  case h_4 =>
    rw [compareLine_eq]
    cases l with
    | background => rfl
    | objects => rfl
  all_goals
    cases l with
    | background => rfl
    | objects => rfl

/-- The hardware and its palette memories. -/
def stores (p : Ppu) : Model × PaletteRam × PaletteRam := (p.model, p.background, p.objects)

theorem palettes_of_stores {q : Ppu} (h : q.stores = p.stores) (l : Layer) :
    q.palettes l = p.palettes l := by
  cases l with
  | background => exact congrArg (·.2.1) h
  | objects => exact congrArg (·.2.2) h

theorem Elapses.stores_eq {q : Ppu} (h : Elapses p q) : q.stores = p.stores := by
  obtain ⟨_, _, _, _, _, _, _, _, _, _, _, _, rfl⟩ := h
  rfl

/-- **A write to a port sends to the memory that the port belongs to**, and to no other. -/
theorem writePort_palettes (hcolor : p.model = .color) (l : Layer) (addr : UInt16) (v : UInt8) :
    (p.writePort addr v).value.palettes l = (p.palettes l).receive? (portSends l addr v) := by
  unfold writePort
  split
  · rename_i hlcdc
    have hkept := palettes_of_stores (writeLcdc_elapses p v).stores_eq l
    subst hlcdc
    rw [hkept]
    cases l with
    | background => rfl
    | objects => rfl
  · exact writeControl_palettes hcolor l addr v

/-- What happens at the display: the CPU reads one of its ports, or an operation is performed. -/
inductive Visit where
  | read (addr : UInt16)
  | operation (op : Operation)

/-- The display after a visit, and the byte that was read. -/
def visit (p : Ppu) : Visit → Ppu × Option UInt8
  | .read addr => (p, some (p.readPort addr))
  | .operation op => (p.perform op, none)

/-- The display after many visits. -/
def visited (p : Ppu) (visits : List Visit) : Ppu := visits.foldl (fun p v => (p.visit v).1) p

/-- What a visit sends to the palette memory of a layer. -/
def Visit.sends (l : Layer) : Visit → Option PaletteRam.Send
  | .operation (.port addr v) => portSends l addr v
  | _ => none

/-- The visit is that of the boot image, which stores palettes without the ports. -/
def Visit.IsPalettes : Visit → Prop
  | .operation (.palettes _) => True
  | _ => False

/-- The operation goes past the palette memories: only the ports and the boot image reach them. -/
def Operation.isElsewhere : Operation → Bool
  | .port _ _ | .palettes _ => false
  | _ => true

theorem perform_stores (p : Ppu) {op : Operation} (h : op.isElsewhere) :
    (p.perform op).stores = p.stores := by
  cases op with
  | port addr v => cases h
  | palettes palettes => cases h
  | run dots => exact (step_elapses p dots).stores_eq
  | vramBank v | moveVram upper offset v | moveOam i v | monochrome => rfl
  | vram addr v =>
    show (p.writeVram addr v).stores = p.stores
    unfold writeVram
    split <;> rfl
  | oam addr v =>
    show (p.writeOam addr v).stores = p.stores
    unfold writeOam
    split
    · split <;> rfl
    · rfl

theorem perform_model (p : Ppu) {op : Operation} (h : op.isElsewhere) :
    (p.perform op).model = p.model :=
  congrArg Prod.fst (perform_stores p h)

theorem visit_palettes (hcolor : p.model = .color) (l : Layer) {v : Visit} (hv : ¬ v.IsPalettes) :
    (p.visit v).1.palettes l = (p.palettes l).receive? (v.sends l) := by
  cases v with
  | read addr => rfl
  | operation op =>
    cases op with
    | port addr v => exact writePort_palettes hcolor l addr v
    | palettes palettes => exact absurd trivial hv
    | _ => exact palettes_of_stores (perform_stores p rfl) l

theorem visit_model (p : Ppu) (v : Visit) : (p.visit v).1.model = p.model := by
  cases v with
  | read addr => rfl
  | operation op =>
    show (p.perform op).model = p.model
    cases op with
    | port addr v =>
      show (p.writePort addr v).value.model = p.model
      unfold writePort
      split
      · exact congrArg Prod.fst (writeLcdc_elapses p v).stores_eq
      · obtain ⟨controls, coincidence, background, objects, hq, -⟩ := writeControl_eq p addr v
        rw [hq]
        rfl
    | palettes palettes => rfl
    | _ => exact perform_model p rfl

theorem visited_model (p : Ppu) (visits : List Visit) : (p.visited visits).model = p.model := by
  induction visits generalizing p with
  | nil => rfl
  | cons v rest ih => exact (ih (p.visit v).1).trans (visit_model p v)

/-- What a history sends to the palette memory of a layer. -/
def sends (l : Layer) (visits : List Visit) : List PaletteRam.Send :=
  visits.filterMap (Visit.sends l)

/-- **A palette memory is what was sent to it**, whatever else happened to the display. -/
theorem foldl_palettes (hcolor : p.model = .color) (l : Layer) {visits : List Visit}
    (hvisits : ∀ v ∈ visits, ¬ v.IsPalettes) :
    (p.visited visits).palettes l =
      (sends l visits).foldl PaletteRam.receive (p.palettes l) := by
  induction visits generalizing p with
  | nil => rfl
  | cons v rest ih =>
    have hfirst := visit_palettes hcolor l (hvisits v List.mem_cons_self)
    have hrest := ih ((visit_model p v).trans hcolor) fun w hw =>
      hvisits w (List.mem_cons_of_mem v hw)
    show ((p.visit v).1.visited rest).palettes l = _
    rw [hrest, hfirst]
    unfold sends PaletteRam.receive?
    rw [List.filterMap_cons]
    split
    · rename_i hnone
      rw [hnone]
      rfl
    · rename_i send hsome
      rw [hsome]
      rfl

/-- The bytes that the CPU reads if it writes index bytes and reads the data port after each. -/
def readBack (p : Ppu) (l : Layer) : List UInt8 → List UInt8
  | [] => []
  | i :: rest =>
    let q := (p.writePort l.indexPort i).value
    q.readPort l.dataPort :: q.readBack l rest

theorem readBack_eq (hcolor : p.model = .color) (l : Layer) (indices : List UInt8) :
    p.readBack l indices = indices.map fun i => (p.palettes l).cell i.toNat := by
  have hindex : ∀ i : UInt8, ((i &&& 0xBF) ||| 0x40).toNat % 0x40 = i.toNat % 0x40 :=
    forall_byte (by decide +kernel)
  induction indices generalizing p with
  | nil => rfl
  | cons i rest ih =>
    have hmodel : (p.writePort l.indexPort i).value.model = .color :=
      (visit_model p (.operation (.port l.indexPort i))).trans hcolor
    have hsent : (p.writePort l.indexPort i).value.palettes l = (p.palettes l).writeIndex i := by
      rw [writePort_palettes hcolor, portSends, if_pos rfl]
      rfl
    have hcell (n : Nat) : ((p.writePort l.indexPort i).value.palettes l).cell n =
        (p.palettes l).cell n := by
      rw [hsent]
      rfl
    unfold readBack
    simp only
    rw [ih hmodel, readPort_dataPort hmodel, List.map_cons]
    simp only [hcell]
    rw [hsent]
    exact congrArg (· :: _) ((p.palettes l).cell_congr (hindex i))

/-- A stream that fills the memory is read back as it was sent. -/
theorem readBack_streamed (hcolor : p.model = .color) {l : Layer} {before : PaletteRam} {i : UInt8}
    {d : List UInt8} (h : PaletteRam.Streamed before i.toNat d (p.palettes l))
    (hd : d.length = 0x40) :
    p.readBack l ((List.range 0x40).map fun k => i + UInt8.ofNat k) = d := by
  rw [readBack_eq hcolor, List.map_map]
  apply List.ext_getElem
  · rw [List.length_map, List.length_range, hd]
  · intro k hk hkd
    rw [List.getElem_map, List.getElem_range, ← h.sent k hkd]
    · have hcell : (i + UInt8.ofNat k).toNat % 0x40 = (i.toNat + k) % 0x40 := by
        rw [UInt8.toNat_add, UInt8.toNat_ofNat']
        omega
      exact (p.palettes l).cell_congr hcell
    · intro k' hlater hk'
      omega

/-- **Palette RAM takes streams**, whatever else is done at the display meanwhile, at the other
palette memory too. The bytes go around the memory; or to one cell if the index says so. -/
theorem palettes_stream (hcolor : p.model = .color) (l : Layer) {visits : List Visit}
    (hvisits : ∀ v ∈ visits, ¬ v.IsPalettes) :
    let q := p.visited visits
    (∀ i d, sends l visits = .index (0x80 ||| i) :: d.map .data →
      PaletteRam.Streamed (p.palettes l) i.toNat d (q.palettes l) ∧
      q.readPort l.indexPort = 0xC0 ||| UInt8.ofNat ((i.toNat + d.length) % 0x40) ∧
      q.readPort l.dataPort = (q.palettes l).cell (i.toNat + d.length) ∧
      (d.length = 0x40 →
        q.readBack l ((List.range 0x40).map fun k => i + UInt8.ofNat k) = d)) ∧
    (∀ i d, i &&& 0x80 = 0 → sends l visits = .index i :: d.map .data →
      PaletteRam.Pinned (p.palettes l) i d (q.palettes l) ∧
      q.readPort l.indexPort = 0x40 ||| (i &&& 0x3F) ∧
      q.readPort l.dataPort = (q.palettes l).cell i.toNat) ∧
    (sends l visits = [] → q.palettes l = p.palettes l) := by
  intro q
  have hq : q.model = .color := (visited_model p visits).trans hcolor
  have hmemory := foldl_palettes hcolor l hvisits
  refine ⟨?_, ?_, ?_⟩
  · intro i d hsent
    have hstream : PaletteRam.Streamed (p.palettes l) i.toNat d (q.palettes l) := by
      rw [hmemory, hsent]
      exact PaletteRam.receive_streamed (p.palettes l) i d
    refine ⟨hstream, ?_, ?_, ?_⟩
    · rw [readPort_indexPort hq, hstream.index]
    · -- the index has moved on, so this is the cell that the next byte would go to
      rw [readPort_dataPort hq, hstream.index]
      apply PaletteRam.cell_congr
      exact PaletteRam.toNat_streamIndex _
    · intro hd
      exact readBack_streamed hq hstream hd
  · intro i d hpinned hsent
    have hstream : PaletteRam.Pinned (p.palettes l) i d (q.palettes l) := by
      rw [hmemory, hsent]
      exact PaletteRam.receive_pinned (p.palettes l) hpinned d
    refine ⟨hstream, ?_, ?_⟩
    · rw [readPort_indexPort hq, hstream.index]
    · rw [readPort_dataPort hq, hstream.index]
      apply PaletteRam.cell_congr
      exact PaletteRam.toNat_pinnedIndex i
  · intro hsent
    rw [hsent] at hmemory
    exact hmemory

/-- Two streams to the two memories at once, one of them past its last cell. -/
theorem palettes_stream_interleaved :
    let p := powerOn .color
    let visits := [Visit.operation (.port 0xFF68 0xBF), .operation (.port 0xFF6A 0x80),
      .operation (.port 0xFF69 1), .read 0xFF69, .operation (.port 0xFF6B 9),
      .operation (.port 0xFF69 2)]
    (p.visited visits).readPort 0xFF68 = 0xC1 ∧ (p.visited visits).background.cell 0x3F = 1 ∧
      (p.visited visits).background.cell 0 = 2 := by
  intro p visits
  have hvisits : ∀ v ∈ visits, ¬ v.IsPalettes := by
    intro v hv
    simp only [visits, List.mem_cons, List.not_mem_nil, or_false] at hv
    rcases hv with rfl | rfl | rfl | rfl | rfl | rfl <;> exact id
  have hsends : sends .background visits = .index (0x80 ||| 0x3F) :: [1, 2].map .data := by decide
  obtain ⟨hstream, hindex, -⟩ :=
    (palettes_stream (p := p) rfl .background hvisits).1 0x3F [1, 2] hsends
  refine ⟨hindex, hstream.sent 0 (by decide) ?_, hstream.sent 1 (by decide) ?_⟩
  · intro k' hlater hk'
    obtain rfl : k' = 1 := by simp only [List.length_cons, List.length_nil] at hk'; omega
    decide
  · intro k' hlater hk'
    simp only [List.length_cons, List.length_nil] at hk'
    omega

end Handheld.Ppu
