import Handheld.Proofs.Board.Requests
import Handheld.Proofs.Checked.Peripherals

/-!
# The sound registers after a history of writes

All that the file shows comes from the writes to it. A register holds the last byte written to it
with the power on, unless the power was cut since; the wave memory holds the last byte written to it
in any case. A channel plays from a trigger, with its converter on, until its converter or the power
goes off.

* `Sound.latest?`: what the latest of the writes that matter says.
* `Sound.poweredAfter`, `registerAfter`, `waveAfter`, `playsAfter`: what a history says.
* `perform_outcome`: the five things that a write can do.
* `Outcome.stored_eq`, `Outcome.plays`: what each of them leaves in the file and of a channel.
* `through_coherent`: a channel that plays has power, and its converter is on.
* `through_eq`: what each write says of a part of the file, the history says of it.
* `follows_writes`: reads and channels, after any writes.
-/

namespace Handheld.Sound

/-- A byte written to an address, which need not be in the file. -/
structure Write where
  addr : UInt16
  value : UInt8
  deriving DecidableEq

def perform (s : Sound) (w : Write) : Sound := s.write w.addr w.value

/-- The file after a history of writes, the latest of which comes first. -/
def through (start : Sound) : List Write → Sound
  | [] => start
  | w :: past => (start.through past).perform w

/-- What the latest write that says something says, given the writes before it. -/
def latest? {α : Type} (tells : Write → List Write → Option α) : List Write → Option α
  | [] => none
  | w :: past => (tells w past).or (latest? tells past)

/-- The channel's status bit is set. -/
def plays (s : Sound) (c : Channel) : Bool := s.playing &&& c.bit != 0

/-- The registers other than the power register: `FF10`–`FF25` and `FF27`–`FF2F`. -/
def IsRegister (a : UInt16) : Prop := (0xFF10 ≤ a ∧ a ≤ 0xFF25) ∨ (0xFF27 ≤ a ∧ a ≤ 0xFF2F)

/-- The wave memory `FF30`–`FF3F`. -/
def IsWave (a : UInt16) : Prop := 0xFF30 ≤ a ∧ a ≤ 0xFF3F

instance (a : UInt16) : Decidable (IsRegister a) := inferInstanceAs (Decidable (_ ∨ _))

instance (a : UInt16) : Decidable (IsWave a) := inferInstanceAs (Decidable (_ ∧ _))

namespace Write

/-- The write clears the power bit. -/
def CutsPower (w : Write) : Prop := w.addr = 0xFF26 ∧ w.value &&& 0x80 = 0

/-- The write has bit 7 set and goes to the register that starts the channel. -/
def Triggers (w : Write) (c : Channel) : Prop := w.addr = c.trigger ∧ w.value &&& 0x80 ≠ 0

/-- The write turns the channel's converter off. -/
def Silences (w : Write) (c : Channel) : Prop :=
  w.addr = c.converter ∧ w.value &&& c.converterMask = 0

instance (w : Write) : Decidable w.CutsPower := inferInstanceAs (Decidable (_ ∧ _))

instance (w : Write) (c : Channel) : Decidable (w.Triggers c) :=
  inferInstanceAs (Decidable (_ ∧ _))

instance (w : Write) (c : Channel) : Decidable (w.Silences c) :=
  inferInstanceAs (Decidable (_ ∧ _))

end Write

/-- **The power is on** if bit 7 was set in the last write to `FF26`. -/
def poweredAfter (start : Sound) (past : List Write) : Bool :=
  (latest? (fun w _ => if w.addr = 0xFF26 then some (w.value &&& 0x80 != 0) else none) past).getD
    start.powered

/-- **A register holds** the last byte written to it with the power on since the power was last cut,
else zero if it was cut, else what it held at first. -/
def registerAfter (start : Sound) (a : UInt16) (past : List Write) : UInt8 :=
  (latest? (fun w earlier =>
    if w.CutsPower then some 0
    else if w.addr = a ∧ poweredAfter start earlier = true then some w.value
    else none) past).getD (start.stored a)

/-- **The wave memory holds** the last byte written to it. -/
def waveAfter (start : Sound) (a : UInt16) (past : List Write) : UInt8 :=
  (latest? (fun w _ => if w.addr = a then some w.value else none) past).getD (start.stored a)

/-- The channel's converter, from what the register that switches it holds. -/
def converterAfter (start : Sound) (c : Channel) (past : List Write) : Bool :=
  registerAfter start c.converter past &&& c.converterMask != 0

/-- **A channel plays** if it was triggered, with the power and its converter on, since the power
was last cut and its converter last turned off. -/
def playsAfter (start : Sound) (c : Channel) (past : List Write) : Bool :=
  (latest? (fun w earlier =>
    if w.CutsPower ∨ w.Silences c then some false
    else if w.Triggers c ∧ poweredAfter start earlier = true ∧
      converterAfter start c earlier = true then some true
    else none) past).getD (start.plays c)

variable {s t start : Sound} {w : Write} {a : UInt16} {c d : Channel} {i : Fin 0x30}

theorem toNat_of_index? (h : index? a = some i) : a.toNat = 0xFF10 + i.val := by
  cases hin : inFile a with
  | false =>
    rw [index?_of_not_inFile hin] at h
    cases h
  | true =>
    obtain ⟨hlow, hi, hindex⟩ := index?_of_inFile hin
    obtain rfl : ⟨a.toNat - 0xFF10, hi⟩ = i := Option.some.inj (hindex.symm.trans h)
    show a.toNat = 0xFF10 + (a.toNat - 0xFF10)
    omega

theorem stored_of_index? (s : Sound) {n : Nat} {hn : n < 0x30} (h : index? a = some ⟨n, hn⟩) :
    s.stored a = s.registers[n] := by
  unfold stored
  rw [h]
  rfl

theorem exists_index? (hlow : 0xFF10 ≤ a.toNat) (hhigh : a.toNat ≤ 0xFF3F) :
    ∃ i, index? a = some i := by
  have hin : inFile a = true := by
    simp only [inFile, Bool.and_eq_true, decide_eq_true_eq, UInt16.le_iff_toNat_le]
    exact ⟨hlow, hhigh⟩
  obtain ⟨-, hi, hindex⟩ := index?_of_inFile hin
  exact ⟨_, hindex⟩

theorem IsRegister.toNat (h : IsRegister a) : 0xFF10 ≤ a.toNat ∧ a.toNat ≤ 0xFF2F := by
  simp only [IsRegister, UInt16.le_iff_toNat_le, UInt16.reduceToNat] at h
  omega

theorem IsRegister.ne_power (h : IsRegister a) : a ≠ 0xFF26 := by
  rintro rfl
  exact absurd h (by decide)

theorem IsWave.toNat (h : IsWave a) : 0xFF30 ≤ a.toNat ∧ a.toNat ≤ 0xFF3F := by
  simpa only [IsWave, UInt16.le_iff_toNat_le, UInt16.reduceToNat] using h

theorem IsWave.ne_power (h : IsWave a) : a ≠ 0xFF26 := by
  rintro rfl
  exact absurd h (by decide)

theorem IsRegister.exists_index? (h : IsRegister a) :
    ∃ i : Fin 0x30, index? a = some i ∧ i.val < 0x20 := by
  obtain ⟨hlow, hhigh⟩ := h.toNat
  obtain ⟨i, hi⟩ := Sound.exists_index? hlow (by omega)
  have hplace := toNat_of_index? hi
  exact ⟨i, hi, by omega⟩

theorem IsWave.exists_index? (h : IsWave a) :
    ∃ i : Fin 0x30, index? a = some i ∧ 0x20 ≤ i.val := by
  obtain ⟨hlow, hhigh⟩ := h.toNat
  obtain ⟨i, hi⟩ := Sound.exists_index? (by omega) hhigh
  have hplace := toNat_of_index? hi
  exact ⟨i, hi, by omega⟩

theorem Write.CutsPower.index? (h : w.CutsPower) : Sound.index? w.addr = some 0x16 := by
  rw [h.1]
  rfl

theorem isRegister_converter (c : Channel) : IsRegister c.converter := by
  cases c <;> decide

theorem isRegister_trigger (c : Channel) : IsRegister c.trigger := by
  cases c <;> decide

/-- **A byte put at an address** changes what is stored there, and nothing else. -/
structure Puts (s : Sound) (a : UInt16) (v : UInt8) (t : Sound) : Prop where
  stored : ∀ b, t.stored b = if a = b then v else s.stored b
  playing : t.playing = s.playing

theorem puts_set (s : Sound) {n : Nat} {hn : n < 0x30} (h : index? a = some ⟨n, hn⟩) (v : UInt8) :
    Puts s a v { s with registers := s.registers.set n v hn } := by
  refine ⟨fun b => ?_, rfl⟩
  cases hb : index? b with
  | none =>
    have hne : a ≠ b := by
      rintro rfl
      rw [h] at hb
      cases hb
    unfold stored
    rw [hb, if_neg hne]
  | some j =>
    have hsame : n = j.val ↔ a = b := by
      have ha : a.toNat = 0xFF10 + n := toNat_of_index? h
      rw [← UInt16.toNat_inj, ha, toNat_of_index? hb]
      omega
    rw [stored_of_index? _ hb, stored_of_index? _ hb, Vector.getElem_set hn j.isLt]
    simp only [hsame]

/-- **The five things that a write can do.** -/
inductive Outcome (s : Sound) (w : Write) : Sound → Prop
  | outside (hout : ∀ i, index? w.addr ≠ some i) : Outcome s w s
  | cut (hcut : w.CutsPower) : Outcome s w s.powerOff
  | power {t : Sound} (hput : Puts s w.addr 0x80 t) (ha : w.addr = 0xFF26)
      (hv : w.value &&& 0x80 ≠ 0) : Outcome s w t
  | ignored (ha : w.addr ≠ 0xFF26) (hlow : w.addr.toNat ≤ 0xFF2F) (hoff : s.powered = false) :
      Outcome s w s
  | kept {t : Sound} (hput : Puts s w.addr w.value t) (ha : w.addr ≠ 0xFF26)
      (hopen : s.powered = true ∨ 0xFF30 ≤ w.addr.toNat) :
      Outcome s w ((t.start w.addr w.value).stop w.addr)

theorem perform_outcome (s : Sound) (w : Write) : Outcome s w (s.perform w) := by
  unfold perform write
  split
  · rename_i hnone
    refine .outside fun i hi => ?_
    rw [hnone] at hi
    cases hi
  · rename_i i hi
    split
    · rename_i ha
      split
      · rename_i hv
        exact .cut ⟨ha, hv⟩
      · rename_i hv
        exact .power (puts_set s hi 0x80) ha hv
    · rename_i ha
      have hlow : w.addr < 0xFF30 ↔ w.addr.toNat ≤ 0xFF2F := by
        rw [UInt16.lt_iff_toNat_lt]
        exact Nat.lt_succ_iff
      split
      · rename_i hclosed
        simp only [Bool.and_eq_true, Bool.not_eq_true', decide_eq_true_eq, hlow] at hclosed
        exact .ignored ha hclosed.2 hclosed.1
      · rename_i hopen
        simp only [Bool.and_eq_true, Bool.not_eq_true', decide_eq_true_eq, hlow] at hopen
        refine .kept (puts_set s hi w.value) ha ?_
        cases hon : s.powered with
        | true => exact .inl rfl
        | false => exact .inr (Nat.lt_of_not_le fun hle => hopen ⟨hon, hle⟩)

@[simp] theorem stored_start (s : Sound) (a : UInt16) (v : UInt8) (b : UInt16) :
    (s.start a v).stored b = s.stored b := by
  unfold start
  split
  · split <;> rfl
  · rfl

@[simp] theorem stored_stop (s : Sound) (a b : UInt16) : (s.stop a).stored b = s.stored b := by
  unfold stop
  split
  · split <;> rfl
  · rfl

theorem stored_powerOff (s : Sound) (hi : index? a = some i) :
    s.powerOff.stored a = if i.val < 0x20 then 0 else s.stored a := by
  rw [stored_of_index? _ hi, stored_of_index? _ hi]
  exact Vector.getElem_mapFinIdx ..

/-- **What a write leaves in the file.** -/
theorem Outcome.stored_eq (h : Outcome s w t) (hi : index? a = some i) :
    t.stored a =
      if w.CutsPower then (if i.val < 0x20 then 0 else s.stored a)
      else if w.addr = a ∧ (a = 0xFF26 ∨ s.powered = true ∨ 0xFF30 ≤ a.toNat) then
        (if a = 0xFF26 then 0x80 else w.value)
      else s.stored a := by
  cases h with
  | outside hout =>
    have hne : w.addr ≠ a := by
      rintro rfl
      exact hout i hi
    rw [if_neg fun h => hout _ h.index?, if_neg fun h => hne h.1]
  | cut hcut => rw [if_pos hcut, stored_powerOff s hi]
  | power hput haddr hv =>
    rw [if_neg fun h => hv h.2, hput.stored, haddr]
    by_cases ha : 0xFF26 = a
    · rw [if_pos ha, if_pos ⟨ha, .inl ha.symm⟩, if_pos ha.symm]
    · rw [if_neg ha, if_neg fun h => ha h.1]
  | ignored hne hlow hoff =>
    rw [if_neg fun h => hne h.1, if_neg]
    rintro ⟨rfl, hopen⟩
    rcases hopen with haddr | hon | hwave
    · exact hne haddr
    · rw [hoff] at hon
      cases hon
    · omega
  | kept hput hne hopen =>
    rw [if_neg fun h => hne h.1, stored_stop, stored_start, hput.stored]
    by_cases ha : w.addr = a
    · subst ha
      rw [if_pos rfl, if_pos ⟨rfl, .inr hopen⟩, if_neg hne]
    · rw [if_neg ha, if_neg fun h => ha h.1]

theorem Outcome.powered (h : Outcome s w t) :
    t.powered = if w.addr = 0xFF26 then w.value &&& 0x80 != 0 else s.powered := by
  unfold Sound.powered
  rw [h.stored_eq (i := 0x16) rfl]
  by_cases haddr : w.addr = 0xFF26
  · by_cases hv : w.value &&& 0x80 = 0
    · rw [if_pos ⟨haddr, hv⟩, if_pos (by decide), if_pos haddr, hv]
      rfl
    · rw [if_neg fun h => hv h.2, if_pos ⟨haddr, .inl rfl⟩, if_pos rfl, if_pos haddr,
        bne_iff_ne.2 hv]
      rfl
  · rw [if_neg fun h => haddr h.1, if_neg fun h => haddr h.1, if_neg haddr]

theorem Outcome.register (h : Outcome s w t) (ha : IsRegister a) :
    t.stored a =
      if w.CutsPower then 0
      else if w.addr = a ∧ s.powered = true then w.value
      else s.stored a := by
  obtain ⟨i, hi, hlow⟩ := ha.exists_index?
  -- below the wave memory the power alone opens the file
  have hopen : (a = 0xFF26 ∨ s.powered = true ∨ 0xFF30 ≤ a.toNat) ↔ s.powered = true := by
    have hwave : ¬ 0xFF30 ≤ a.toNat := Nat.not_le.2 (Nat.lt_succ_of_le ha.toNat.2)
    simp only [ha.ne_power, hwave, false_or, or_false]
  simp only [h.stored_eq hi, hopen, if_pos hlow, if_neg ha.ne_power]

theorem Outcome.wave (h : Outcome s w t) (ha : IsWave a) :
    t.stored a = if w.addr = a then w.value else s.stored a := by
  obtain ⟨i, hi, hhigh⟩ := ha.exists_index?
  have hlow : ¬ i.val < 0x20 := Nat.not_lt.2 hhigh
  rw [h.stored_eq hi]
  simp only [ha.toNat.1, or_true, and_true, if_neg hlow, if_neg ha.ne_power]
  by_cases haddr : w.addr = a
  · rw [if_neg fun hcut => ha.ne_power (haddr.symm.trans hcut.1)]
  · simp only [if_neg haddr, ite_self]

/-! ## Channels -/

theorem bit_and_bit (c d : Channel) : (d.bit &&& c.bit != 0) = decide (d = c) := by
  cases c <;> cases d <;> decide

theorem not_bit_and_bit (c d : Channel) : ~~~d.bit &&& c.bit = if d = c then 0 else c.bit := by
  cases c <;> cases d <;> decide

theorem bit_low (c : Channel) : c.bit &&& 0xF0 = 0 := by
  cases c <;> decide

theorem plays_set (s : Sound) (c d : Channel) :
    { s with playing := s.playing ||| d.bit }.plays c = if d = c then true else s.plays c := by
  unfold plays
  rw [and_of_or, or_bne_zero, bit_and_bit]
  split <;> simp [*]

theorem plays_clear (s : Sound) (c d : Channel) :
    { s with playing := s.playing &&& ~~~d.bit }.plays c = if d = c then false else s.plays c := by
  unfold plays
  rw [UInt8.and_assoc, not_bit_and_bit]
  split
  · rw [UInt8.and_zero]
    rfl
  · rfl

theorem trigger_inj (c d : Channel) (h : c.trigger = d.trigger) : c = d := by
  revert h
  cases c <;> cases d <;> decide

theorem converter_inj (c d : Channel) (h : c.converter = d.converter) : c = d := by
  revert h
  cases c <;> cases d <;> decide

theorem trigger_ne_converter (c d : Channel) : c.trigger ≠ d.converter := by
  cases c <;> cases d <;> decide

/-- An address finds a channel that it belongs to, if there is one. -/
theorem find?_channel (register : Channel → UInt16) (a : UInt16) :
    (∃ d, register d = a ∧ Channel.all.find? (register · == a) = some d) ∨
      (∀ d, register d ≠ a) ∧ Channel.all.find? (register · == a) = none := by
  cases hfind : Channel.all.find? (register · == a) with
  | some d =>
    have hd := List.find?_some (p := (register · == a)) hfind
    exact .inl ⟨d, beq_iff_eq.1 hd, rfl⟩
  | none =>
    refine .inr ⟨fun d hd => ?_, rfl⟩
    have hmem : d ∈ Channel.all := by cases d <;> decide
    exact List.find?_eq_none.1 hfind d hmem (beq_iff_eq.2 hd)

theorem plays_start (s : Sound) (a : UInt16) (v : UInt8) (c : Channel) :
    (s.start a v).plays c =
      if a = c.trigger ∧ v &&& 0x80 ≠ 0 ∧ s.converterOn c = true then true
      else s.plays c := by
  unfold start
  obtain ⟨d, rfl, hfind⟩ | ⟨hnone, hfind⟩ := find?_channel Channel.trigger a
  · simp only [hfind, Bool.and_eq_true, bne_iff_ne]
    by_cases hon : v &&& 0x80 ≠ 0 ∧ s.converterOn d = true
    · rw [if_pos hon, plays_set]
      by_cases hdc : d = c
      · subst hdc
        rw [if_pos rfl, if_pos ⟨rfl, hon⟩]
      · rw [if_neg hdc, if_neg fun h => hdc (trigger_inj d c h.1)]
    · rw [if_neg hon, if_neg]
      rintro ⟨hdc, hon'⟩
      obtain rfl := trigger_inj d c hdc
      exact hon hon'
  · rw [hfind, if_neg fun h => hnone c h.1.symm]

theorem plays_stop (s : Sound) (a : UInt16) (c : Channel) :
    (s.stop a).plays c =
      if a = c.converter ∧ ¬ s.converterOn c = true then false else s.plays c := by
  unfold stop
  obtain ⟨d, rfl, hfind⟩ | ⟨hnone, hfind⟩ := find?_channel Channel.converter a
  · simp only [hfind]
    by_cases hon : s.converterOn d = true
    · rw [if_pos hon, if_neg]
      rintro ⟨hdc, hoff⟩
      obtain rfl := converter_inj d c hdc
      exact hoff hon
    · rw [if_neg hon, plays_clear]
      by_cases hdc : d = c
      · subst hdc
        rw [if_pos rfl, if_pos ⟨rfl, hon⟩]
      · rw [if_neg hdc, if_neg fun h => hdc (converter_inj d c h.1)]
  · rw [hfind, if_neg fun h => hnone c h.1.symm]

theorem Puts.converterOn (h : Puts s w.addr w.value t) (c : Channel) :
    t.converterOn c =
      if w.addr = c.converter then w.value &&& c.converterMask != 0 else s.converterOn c := by
  unfold Sound.converterOn
  rw [h.stored]
  split <;> rfl

@[simp] theorem converterOn_start (s : Sound) (a : UInt16) (v : UInt8) (c : Channel) :
    (s.start a v).converterOn c = s.converterOn c := by
  unfold converterOn
  rw [stored_start]

/-- What a write that reaches its register does to a channel. -/
theorem Puts.plays (h : Puts s w.addr w.value t) (c : Channel) :
    ((t.start w.addr w.value).stop w.addr).plays c =
      if w.Silences c then false
      else if w.Triggers c ∧ s.converterOn c = true then true
      else s.plays c := by
  have hsilences : w.addr = c.converter ∧ ¬ t.converterOn c = true ↔ w.Silences c := by
    refine and_congr_right fun ha => ?_
    rw [h.converterOn, if_pos ha, bne_iff_ne, Classical.not_not]
  have htriggers : w.addr = c.trigger ∧ w.value &&& 0x80 ≠ 0 ∧ t.converterOn c = true ↔
      w.Triggers c ∧ s.converterOn c = true := by
    rw [← and_assoc]
    refine and_congr_right fun ht => ?_
    -- a trigger is no converter's register, so the converter is as it was
    rw [h.converterOn, if_neg (ht.1 ▸ trigger_ne_converter c c)]
  have hplays : t.plays c = s.plays c := by
    unfold Sound.plays
    rw [h.playing]
  rw [plays_stop, plays_start, converterOn_start, hplays]
  simp only [hsilences, htriggers]

/-- **What a write does to a channel.** -/
theorem Outcome.plays (h : Outcome s w t) (c : Channel) :
    t.plays c =
      if w.CutsPower then false
      else if s.powered = true ∧ w.Silences c then false
      else if w.Triggers c ∧ s.powered = true ∧ s.converterOn c = true then true
      else s.plays c := by
  have hsilences (hs : w.Silences c) : IsRegister w.addr := hs.1 ▸ isRegister_converter c
  have htriggers (ht : w.Triggers c) : IsRegister w.addr := ht.1 ▸ isRegister_trigger c
  cases h with
  | outside hout =>
    -- to silence or to trigger a channel takes a register
    have hnone (ha : IsRegister w.addr) : False := by
      obtain ⟨i, hi, -⟩ := ha.exists_index?
      exact hout i hi
    rw [if_neg fun h => hout _ h.index?, if_neg fun h => hnone (hsilences h.2),
      if_neg fun h => hnone (htriggers h.1)]
  | cut hcut =>
    rw [if_pos hcut]
    show (0 &&& c.bit != 0) = false
    rw [UInt8.zero_and]
    rfl
  | power hput haddr hv =>
    have hnone (ha : IsRegister w.addr) : False := ha.ne_power haddr
    rw [if_neg fun h => hv h.2, if_neg fun h => hnone (hsilences h.2),
      if_neg fun h => hnone (htriggers h.1), Sound.plays, hput.playing, Sound.plays]
  | ignored hne hlow hoff =>
    have hpowered : ¬ s.powered = true := Bool.eq_false_iff.1 hoff
    rw [if_neg fun h => hne h.1, if_neg fun h => hpowered h.1, if_neg fun h => hpowered h.2.1]
  | kept hput hne hopen =>
    -- without power only bytes behind the registers are kept
    have hpowered (ha : IsRegister w.addr) : s.powered = true :=
      hopen.resolve_right (by have := ha.toNat; omega)
    have hstops : s.powered = true ∧ w.Silences c ↔ w.Silences c :=
      and_iff_right_of_imp fun hs => hpowered (hsilences hs)
    have hstarts : w.Triggers c ∧ s.powered = true ∧ s.converterOn c = true ↔
        w.Triggers c ∧ s.converterOn c = true :=
      and_congr_right fun ht => and_iff_right (hpowered (htriggers ht))
    rw [if_neg fun h => hne h.1, hput.plays]
    simp only [hstops, hstarts]

/-- **Channels play** with the power and their converter on, and only channels have status bits. -/
structure Coherent (s : Sound) : Prop where
  powered : ∀ c, s.plays c = true → s.powered = true
  converter : ∀ c, s.plays c = true → s.converterOn c = true
  nibble : s.playing &&& 0xF0 = 0

theorem nibble_start (hs : s.playing &&& 0xF0 = 0) (a : UInt16) (v : UInt8) :
    (s.start a v).playing &&& 0xF0 = 0 := by
  unfold start
  split
  · rename_i c hfind
    split
    · rw [and_of_or, hs, bit_low, UInt8.zero_or]
    · exact hs
  · exact hs

theorem nibble_stop (hs : s.playing &&& 0xF0 = 0) (a : UInt16) :
    (s.stop a).playing &&& 0xF0 = 0 := by
  unfold stop
  split
  · rename_i c hfind
    split
    · exact hs
    · rw [UInt8.and_assoc, UInt8.and_comm (~~~c.bit), ← UInt8.and_assoc, hs, UInt8.zero_and]
  · exact hs

theorem Outcome.nibble (h : Outcome s w t) (hs : s.playing &&& 0xF0 = 0) :
    t.playing &&& 0xF0 = 0 := by
  cases h with
  | cut hcut => exact UInt8.zero_and
  | power hput ha hv =>
    rw [hput.playing]
    exact hs
  | kept hput ha hopen =>
    apply nibble_stop
    apply nibble_start
    rw [hput.playing]
    exact hs
  | outside | ignored => exact hs

theorem Outcome.powered_of_not_cut (h : Outcome s w t) (hcut : ¬ w.CutsPower)
    (hs : s.powered = true) : t.powered = true := by
  rw [h.powered]
  split
  · rename_i haddr
    exact bne_iff_ne.2 fun hv => hcut ⟨haddr, hv⟩
  · exact hs

/-- **Every write keeps the channels in order**: a write that takes the power or the converter away
from a channel stops it. -/
theorem Outcome.coherent (h : Outcome s w t) (hs : Coherent s) : Coherent t := by
  -- a channel that plays after the write has just been triggered, or it played before
  have hcases (c : Channel) (hplays : t.plays c = true) :
      ¬ w.CutsPower ∧ ¬ (s.powered = true ∧ w.Silences c) ∧ s.powered = true ∧
        s.converterOn c = true := by
    rw [h.plays] at hplays
    split at hplays
    · cases hplays
    · rename_i hcut
      split at hplays
      · cases hplays
      · rename_i hsilent
        split at hplays
        · rename_i hstarts
          exact ⟨hcut, hsilent, hstarts.2⟩
        · exact ⟨hcut, hsilent, hs.powered c hplays, hs.converter c hplays⟩
  constructor
  case powered =>
    intro c hplays
    obtain ⟨hcut, -, hpowered, -⟩ := hcases c hplays
    exact h.powered_of_not_cut hcut hpowered
  case converter =>
    intro c hplays
    obtain ⟨hcut, hsilent, hpowered, hon⟩ := hcases c hplays
    unfold converterOn
    rw [h.register (isRegister_converter c), if_neg hcut]
    split
    · rename_i haddr
      exact bne_iff_ne.2 fun hv => hsilent ⟨hpowered, haddr.1, hv⟩
    · exact hon
  case nibble => exact h.nibble hs.nibble

/-! ## After any writes -/

/-- The file as it is at power-on, or as the boot image leaves it. -/
def Initial (s : Sound) : Prop := s = {} ∨ s = afterBoot

theorem Initial.coherent (h : Initial start) : Coherent start := by
  rcases h with rfl | rfl
  · exact ⟨by intro c; cases c <;> decide, by intro c; cases c <;> decide, rfl⟩
  · exact ⟨by intro c; cases c <;> decide, by intro c; cases c <;> decide, rfl⟩

theorem through_coherent (h : Coherent start) (past : List Write) :
    Coherent (start.through past) := by
  induction past with
  | nil => exact h
  | cons w past ih => exact (perform_outcome _ w).coherent ih

/-- **What each write says of a part of the file, the history says of it.** -/
theorem through_eq {α : Type} (part : Sound → α) {tells : Write → List Write → Option α}
    (hstep : ∀ w past, part ((start.through past).perform w) =
      (tells w past).getD (part (start.through past))) (past : List Write) :
    part (start.through past) = (latest? tells past).getD (part start) := by
  induction past with
  | nil => rfl
  | cons w past ih =>
    show part ((start.through past).perform w) = ((tells w past).or (latest? tells past)).getD _
    -- where the latest write is silent, the writes before it decide
    rw [hstep, ih, Option.getD_or]

theorem through_powered (start : Sound) (past : List Write) :
    (start.through past).powered = poweredAfter start past := by
  apply through_eq powered
  intro w past
  rw [(perform_outcome _ w).powered]
  split <;> rfl

theorem through_register (start : Sound) (ha : IsRegister a) (past : List Write) :
    (start.through past).stored a = registerAfter start a past := by
  apply through_eq (stored · a)
  intro w past
  rw [(perform_outcome _ w).register ha, through_powered]
  split
  · rfl
  · split <;> rfl

theorem through_wave (start : Sound) (ha : IsWave a) (past : List Write) :
    (start.through past).stored a = waveAfter start a past := by
  apply through_eq (stored · a)
  intro w past
  rw [(perform_outcome _ w).wave ha]
  split <;> rfl

theorem through_converter (start : Sound) (c : Channel) (past : List Write) :
    (start.through past).converterOn c = converterAfter start c past := by
  unfold converterOn converterAfter
  rw [through_register start (isRegister_converter c)]

theorem Coherent.plays_perform (hs : Coherent s) (w : Write) (c : Channel) :
    (s.perform w).plays c =
      if w.CutsPower ∨ w.Silences c then false
      else if w.Triggers c ∧ s.powered = true ∧ s.converterOn c = true then true
      else s.plays c := by
  rw [(perform_outcome s w).plays]
  by_cases hcut : w.CutsPower
  · rw [if_pos hcut, if_pos (.inl hcut)]
  · rw [if_neg hcut]
    by_cases hsilent : w.Silences c
    · have hstop : w.CutsPower ∨ w.Silences c := .inr hsilent
      rw [if_pos hstop]
      cases hon : s.powered with
      | true => exact if_pos ⟨rfl, hsilent⟩
      | false =>
        -- nothing plays without power, so there is nothing to stop
        have hoff : s.plays c = false := by
          apply Bool.eq_false_iff.2
          intro hplays
          exact Bool.false_ne_true (hon.symm.trans (hs.powered c hplays))
        simp only [Bool.false_eq_true, false_and, and_false, if_false, hoff]
    · have hneither : ¬ (w.CutsPower ∨ w.Silences c) := not_or.2 ⟨hcut, hsilent⟩
      rw [if_neg hneither, if_neg fun h => hsilent h.2]

/-- A trigger is neither the power register nor that of a converter. -/
theorem Write.Triggers.stops_none (h : w.Triggers c) : ¬ (w.CutsPower ∨ w.Silences d) := by
  rintro (hcut | hsilent)
  · exact (isRegister_trigger c).ne_power (h.1.symm.trans hcut.1)
  · exact trigger_ne_converter c d (h.1.symm.trans hsilent.1)

/-- **A channel starts** with a trigger, if it has power and its converter is on. -/
theorem Coherent.starts (hs : Coherent s) (w : Write) (hoff : s.plays c = false) :
    (s.perform w).plays c = true ↔
      w.Triggers c ∧ s.powered = true ∧ s.converterOn c = true := by
  rw [hs.plays_perform, hoff]
  constructor
  · intro hplays
    split at hplays
    · cases hplays
    · split at hplays
      · assumption
      · cases hplays
  · intro hstarts
    rw [if_neg hstarts.1.stops_none, if_pos hstarts]

/-- **A channel stops** when its converter or the power is turned off. -/
theorem Coherent.stops (hs : Coherent s) (w : Write) (hon : s.plays c = true) :
    (s.perform w).plays c = false ↔ w.CutsPower ∨ w.Silences c := by
  rw [hs.plays_perform, hon, ite_self]
  by_cases hstop : w.CutsPower ∨ w.Silences c
  · rw [if_pos hstop]
    exact iff_of_true rfl hstop
  · rw [if_neg hstop]
    exact iff_of_false (by decide) hstop

theorem through_plays (h : Coherent start) (c : Channel) (past : List Write) :
    (start.through past).plays c = playsAfter start c past := by
  apply through_eq (plays · c)
  intro w past
  rw [(through_coherent h past).plays_perform, through_powered, through_converter]
  split
  · rfl
  · split <;> rfl

theorem read_register (s : Sound) (ha : IsRegister a) : s.read a = readMask a ||| s.stored a := by
  obtain ⟨i, hi, -⟩ := ha.exists_index?
  unfold read
  rw [hi, stored_of_index? s hi]
  dsimp only
  rw [if_neg ha.ne_power, UInt8.or_comm]
  rfl

theorem readMask_wave (ha : IsWave a) : readMask a = 0 := by
  unfold readMask
  split
  case h_17 => exact if_pos ha
  all_goals exact absurd ha (by decide)

theorem read_wave (s : Sound) (ha : IsWave a) : s.read a = s.stored a := by
  obtain ⟨i, hi, -⟩ := ha.exists_index?
  unfold read
  rw [hi, stored_of_index? s hi]
  dsimp only
  rw [if_neg ha.ne_power, readMask_wave ha, UInt8.or_zero]
  rfl

/-- The status bits of the channels that play. -/
def statusBits (plays : Channel → Bool) : UInt8 :=
  Channel.all.foldl (fun bits c => if plays c then bits ||| c.bit else bits) 0

theorem playing_eq (hs : s.playing &&& 0xF0 = 0) : s.playing = statusBits s.plays := by
  have hall : ∀ v : UInt8, v &&& 0xF0 = 0 → v = statusBits fun c => v &&& c.bit != 0 :=
    forall_byte (by decide +kernel)
  exact hall s.playing hs

theorem read_status (hs : s.playing &&& 0xF0 = 0) :
    s.read 0xFF26 = 0x70 ||| (if s.powered = true then 0x80 else 0) ||| statusBits s.plays := by
  have hbit : ∀ v : UInt8, v &&& 0x80 = if (v &&& 0x80 != 0) = true then 0x80 else 0 :=
    forall_byte (by decide +kernel)
  rw [← playing_eq hs]
  show (s.stored 0xFF26 &&& 0x80) ||| s.playing ||| 0x70 = _
  rw [hbit, UInt8.or_comm, UInt8.or_assoc]
  rfl

/-- **What the file shows after a history of writes**, and what the next write does to a channel. -/
structure Follows (start : Sound) (past : List Write) (s : Sound) : Prop where
  register : ∀ a, IsRegister a → s.read a = readMask a ||| registerAfter start a past
  wave : ∀ a, IsWave a → s.read a = waveAfter start a past
  status : s.read 0xFF26 = 0x70 ||| (if s.powered = true then 0x80 else 0) ||| statusBits s.plays
  powered : s.powered = poweredAfter start past
  converter : ∀ c, s.converterOn c = converterAfter start c past
  plays : ∀ c, s.plays c = playsAfter start c past
  starts : ∀ c w, s.plays c = false → ((s.perform w).plays c = true ↔
    w.Triggers c ∧ s.powered = true ∧ s.converterOn c = true)
  stops : ∀ c w, s.plays c = true → ((s.perform w).plays c = false ↔ w.CutsPower ∨ w.Silences c)
  coherent : ∀ c, s.plays c = true → s.powered = true ∧ s.converterOn c = true

/-- **The file follows the writes to it**, from power-on or from what the boot image leaves. -/
theorem follows_writes (h : Initial start) (past : List Write) :
    Follows start past (start.through past) := by
  have hcoherent := through_coherent h.coherent past
  constructor
  case register =>
    intro a ha
    rw [read_register _ ha, through_register start ha]
  case wave =>
    intro a ha
    rw [read_wave _ ha, through_wave start ha]
  case status => exact read_status hcoherent.nibble
  case powered => exact through_powered start past
  case converter => exact fun c => through_converter start c past
  case plays => exact fun c => through_plays h.coherent c past
  case starts => exact fun c w hoff => hcoherent.starts w hoff
  case stops => exact fun c w hon => hcoherent.stops w hon
  case coherent => exact fun c hplays => ⟨hcoherent.powered c hplays, hcoherent.converter c hplays⟩

/-- While the power is off a converter cannot be turned on, and the wave memory can be written; a
trigger starts a channel only with its converter on. -/
theorem follows_writes_power_cycle :
    let past : List Write := [⟨0xFF19, 0x80⟩, ⟨0xFF14, 0x80⟩, ⟨0xFF17, 0xF0⟩, ⟨0xFF26, 0x80⟩,
      ⟨0xFF30, 0x5A⟩, ⟨0xFF12, 0xF0⟩, ⟨0xFF26, 0x00⟩]
    ((afterBoot.through past).read 0xFF12 = 0x00 ∧ (afterBoot.through past).read 0xFF30 = 0x5A) ∧
      (afterBoot.through past).plays .sweep = false ∧
      (afterBoot.through past).plays .tone = true ∧
      (afterBoot.through (⟨0xFF17, 0x07⟩ :: past)).plays .tone = false := by
  intro past
  have hfollows := follows_writes (.inr rfl) past
  have hplays : (afterBoot.through past).plays .tone = true :=
    (hfollows.plays .tone).trans (by decide)
  refine ⟨⟨(hfollows.register 0xFF12 (by decide)).trans (by decide),
    (hfollows.wave 0xFF30 (by decide)).trans (by decide)⟩,
    (hfollows.plays .sweep).trans (by decide), hplays, ?_⟩
  exact (hfollows.stops .tone ⟨0xFF17, 0x07⟩ hplays).2 (.inr (by decide))

end Handheld.Sound
