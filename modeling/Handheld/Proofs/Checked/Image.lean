import Handheld.Cartridge.BootPalettes
import Handheld.Proofs.Checked.Cartridge

/-!
# Checked images

An image is accepted for what its header says. The bytes of the header have fixed places, the size
codes are amounts of shifts, and on color hardware the title picks palettes from tables.

* `Header.checkedParse_eq`, `Cartridge.checkedOfImage_eq`: images of any size and contents.
* `BootPalettes.checkedOfHeader_eq`: no title leads out of a table.
* `Cartridge.ofImage_inRange`: an accepted image makes a cartridge in range.
-/

namespace Handheld

open Checked

namespace Header

/-- A byte of an image. -/
def checkedByte (image : ByteArray) (i : Nat) : Checked UInt8 :=
  (fun j : Fin image.size => image[j]) <$> place image.size i

/-- The bytes of an image from `start` up to `stop`. -/
def checkedSlice (image : ByteArray) (start stop : Nat) : Checked (List UInt8) :=
  if start ≤ stop ∧ stop ≤ image.size then return slice image start stop else .error .outOfBounds

def checkedChecksum (image : ByteArray) : Checked UInt8 :=
  List.foldl (fun sum v => sum - v - 1) 0 <$> checkedSlice image 0x134 0x14D

def checkedRomBanksOf? (code : UInt8) : Checked (Option Nat) :=
  match code with
  | 0x52 => return some 72
  | 0x53 => return some 80
  | 0x54 => return some 96
  | _ =>
    if code ≤ 8 then do
      let n ← amount 64 code.toNat
      return some (2 <<< n)
    else return none

/-- The title field as stored fills its sixteen cells; the title itself is a slice of its own. -/
def checkedTitle (image : ByteArray) (colorFlag : UInt8) : Checked (String × List UInt8) := do
  let field ← checkedSlice image 0x134 0x144
  let _ ← ensure (field.length = 16)
  let title ← checkedSlice image 0x134 (if colorFlag &&& 0x80 != 0 then 0x143 else 0x144)
  return (String.ofList (Text.trim (Text.decodeLossy (title.takeWhile (· != 0)))), field)

def checkedParse (image : ByteArray) : Checked (Except ImageError Header) :=
  if image.size = 0 then return .error .emptyImage
  else if image.size < requiredSize then return .error (.truncatedHeader image.size)
  else do
    let colorFlag ← checkedByte image 0x143
    let type ← checkedByte image 0x147
    let romSizeCode ← checkedByte image 0x148
    let ramSizeCode ← checkedByte image 0x149
    match Controller.ofCodes type ramSizeCode with
    | .error e => return .error e
    | .ok controller =>
      match ← checkedRomBanksOf? romSizeCode, ramSizeOf? controller ramSizeCode with
      | none, _ => return .error (.unsupportedRomSize romSizeCode)
      | some _, none => return .error (.unsupportedRamSize ramSizeCode)
      | some romBanks, some ramSize => do
        let (title, titleBytes) ← checkedTitle image colorFlag
        let licensee ← checkedByte image 0x144
        let licensee' ← checkedByte image 0x145
        let oldLicensee ← checkedByte image 0x14B
        let superFlag ← checkedByte image 0x146
        let storedChecksum ← checkedByte image 0x14D
        let computedChecksum ← checkedChecksum image
        return .ok {
          title, titleBytes, colorFlag
          newLicensee := (licensee, licensee')
          oldLicensee, superFlag, type, controller, romSizeCode, ramSizeCode, romBanks, ramSize
          storedChecksum, computedChecksum }

variable {image : ByteArray}

theorem toList_loop_eq (image : ByteArray) (i : Nat) (r : List UInt8) :
    ByteArray.toList.loop image i r = r.reverse ++ image.data.toList.drop i := by
  induction i, r using ByteArray.toList.loop.induct image with
  | case1 i r hlt ih =>
    have hi : i < image.data.toList.length := by simpa using hlt
    have hget : image.get! i = image.data.toList[i] := by
      rw [Array.getElem_toList]
      exact getElem!_pos image.data i hlt
    rw [ByteArray.toList.loop, if_pos hlt, ih, List.drop_eq_getElem_cons hi, hget]
    simp
  | case2 i r hge =>
    have hend : image.data.toList.length ≤ i := by simpa using hge
    rw [ByteArray.toList.loop, if_neg hge, List.drop_eq_nil_of_le hend]
    simp

theorem slice_eq (start stop : Nat) :
    slice image start stop = (image.data.toList.drop start).take (stop - start) := by
  rw [slice, ByteArray.toList, toList_loop_eq, ByteArray.data_extract, Array.toList_extract,
    List.extract_eq_take_drop]
  rfl

theorem slice_length {start stop : Nat} (h : stop ≤ image.size) :
    (slice image start stop).length = stop - start := by
  have hsize : image.data.toList.length = image.size := rfl
  rw [slice_eq, List.length_take, List.length_drop, hsize]
  omega

theorem checkedByte_eq {i : Nat} (h : i < image.size) : checkedByte image i = .ok image[i] := by
  rw [checkedByte, place_ok h]
  rfl

theorem checkedSlice_eq {start stop : Nat} (h : start ≤ stop) (h' : stop ≤ image.size) :
    checkedSlice image start stop = .ok (slice image start stop) :=
  if_pos ⟨h, h'⟩

theorem checkedRomBanksOf?_eq (code : UInt8) :
    checkedRomBanksOf? code = .ok (romBanksOf? code) := by
  unfold checkedRomBanksOf?
  split
  · rfl
  · rfl
  · rfl
  · rename_i h72 h80 h96
    have hother : romBanksOf? code = if code ≤ 8 then some (2 <<< code.toNat) else none := by
      unfold romBanksOf?
      split
      · exact (h72 rfl).elim
      · exact (h80 rfl).elim
      · exact (h96 rfl).elim
      · rfl
    rw [hother]
    split
    · rename_i hle
      have hcode : code.toNat ≤ 8 := UInt8.le_iff_toNat_le.1 hle
      rw [amount_ok (show code.toNat < 64 by omega)]
      rfl
    · rfl

theorem romBanksOf?_le {code : UInt8} {banks : Nat} (h : romBanksOf? code = some banks) :
    banks ≤ 512 := by
  have hall : (romBanksOf? code).all (· ≤ 512) = true :=
    forall_byte (P := fun v => (romBanksOf? v).all (· ≤ 512) = true) (by decide +kernel) code
  rw [h] at hall
  simpa using hall

theorem checkedTitle_eq (h : requiredSize ≤ image.size) (colorFlag : UInt8) :
    checkedTitle image colorFlag =
      .ok (titleOf (slice image 0x134 0x144) colorFlag, slice image 0x134 0x144) := by
  have hsize : 0x150 ≤ image.size := h
  have hfield : 0x144 ≤ image.size := by omega
  have hshort : 0x143 ≤ image.size := by omega
  unfold checkedTitle titleOf
  rw [checkedSlice_eq (by decide) hfield, ok_bind, ensure_ok (slice_length hfield), ok_bind]
  cases colorFlag &&& 0x80 != 0 with
  | true =>
    have htake : slice image 0x134 0x143 = (slice image 0x134 0x144).take 15 := by
      simp only [slice_eq, List.take_take]
      rfl
    rw [if_pos rfl, if_pos rfl, checkedSlice_eq (by decide) hshort, htake]
    rfl
  | false =>
    rw [if_neg Bool.false_ne_true, if_neg Bool.false_ne_true, checkedSlice_eq (by decide) hfield]
    rfl

/-- **A header is read without fault**, or rejected without one. -/
theorem checkedParse_eq (image : ByteArray) : checkedParse image = .ok (parse image) := by
  unfold checkedParse parse
  by_cases hempty : image.size = 0
  · rw [if_pos hempty, if_pos hempty]
    rfl
  rw [if_neg hempty, if_neg hempty]
  by_cases hshort : image.size < requiredSize
  · rw [if_pos hshort, dif_pos hshort]
    rfl
  rw [if_neg hshort, dif_neg hshort]
  have hsize : 0x150 ≤ image.size := Nat.not_lt.1 hshort
  have hbyte : ∀ i, (hi : i < 0x150) →
      checkedByte image i = .ok (image.get i (Nat.lt_of_lt_of_le hi hsize)) :=
    fun i hi => checkedByte_eq (Nat.lt_of_lt_of_le hi hsize)
  rw [hbyte _ (by decide), ok_bind, hbyte _ (by decide), ok_bind, hbyte _ (by decide), ok_bind,
    hbyte _ (by decide), ok_bind]
  dsimp only
  cases Controller.ofCodes image[0x147] image[0x149] with
  | error e => rfl
  | ok controller =>
    dsimp only
    rw [checkedRomBanksOf?_eq, ok_bind]
    cases romBanksOf? image[0x148] with
    | none => rfl
    | some banks =>
      cases ramSizeOf? controller image[0x149] with
      | none => rfl
      | some size =>
        dsimp only
        rw [checkedTitle_eq hsize, ok_bind]
        dsimp only
        rw [hbyte _ (by decide), ok_bind, hbyte _ (by decide), ok_bind, hbyte _ (by decide),
          ok_bind, hbyte _ (by decide), ok_bind, hbyte _ (by decide), ok_bind, checkedChecksum,
          checkedSlice_eq (by decide) (by omega)]
        rfl

/-- What an accepted header has been checked for. -/
theorem parse_ok {h : Header} (hp : parse image = .ok h) :
    requiredSize ≤ image.size ∧ h.titleBytes = slice image 0x134 0x144 ∧
      romBanksOf? h.romSizeCode = some h.romBanks ∧
      ramSizeOf? h.controller h.ramSizeCode = some h.ramSize := by
  unfold parse at hp
  split at hp
  · cases hp
  split at hp
  · cases hp
  rename_i hshort
  dsimp only at hp
  split at hp
  · cases hp
  split at hp
  · cases hp
  · cases hp
  rename_i hrom hram
  cases hp
  exact ⟨Nat.not_lt.1 hshort, rfl, hrom, hram⟩

theorem titleBytes_length {h : Header} (hp : parse image = .ok h) : h.titleBytes.length = 16 := by
  obtain ⟨hsize, htitle, -⟩ := parse_ok hp
  rw [htitle]
  exact slice_length (Nat.le_trans (by decide) hsize)

/-- The controller with 512 cells of its own declares them. -/
theorem ramSize_mbc2 {h : Header} (hp : parse image = .ok h) (hc : h.controller = .mbc2) :
    h.ramSize = 0x200 := by
  obtain ⟨-, -, -, hram⟩ := parse_ok hp
  have hmbc2 : ramSizeOf? h.controller h.ramSizeCode = some 0x200 := if_pos hc
  exact Option.some.inj (hram.symm.trans hmbc2)

end Header

/-! ## Cartridges -/

namespace Banking

variable {b : Banking} {h : Header} {image : ByteArray}

/-- Only one controller has RAM cells of four bits. -/
theorem initial_hasNibbleRam (hb : initial h image = .ok b) (hn : b.hasNibbleRam = true) :
    h.controller = .mbc2 := by
  unfold initial at hb
  split at hb <;> cases hb <;> first | assumption | exact absurd hn Bool.false_ne_true

end Banking

namespace Cartridge

def checkedOfImage (image : ByteArray) : Checked (Except ImageError Cartridge) := do
  match ← Header.checkedParse image with
  | .error e => return .error e
  | .ok header =>
    match Banking.initial header image with
    | .error e => return .error e
    | .ok banking =>
      -- the declared size is compared with that of the image
      let _ ← unsigned 64 (header.romBanks * romBankSize)
      return .ok {
        rom := image, ram := .replicate (boardRamSize header) 0, header, banking }

/-- **An image is accepted or rejected without fault.** -/
theorem checkedOfImage_eq (image : ByteArray) :
    checkedOfImage image = .ok ((·.value) <$> ofImage image) := by
  unfold checkedOfImage ofImage
  rw [Header.checkedParse_eq, ok_bind]
  cases hp : Header.parse image with
  | error e => rfl
  | ok header =>
    obtain ⟨-, -, hrom, -⟩ := Header.parse_ok hp
    have hdeclared : header.romBanks * romBankSize < 2 ^ 64 :=
      Nat.lt_of_le_of_lt (Nat.mul_le_mul_right _ (Header.romBanksOf?_le hrom)) (by decide)
    dsimp only [bind, Except.bind]
    cases Banking.initial header image with
    | error e => rfl
    | ok banking =>
      rw [unsigned_ok hdeclared]
      rfl

variable {c : Cartridge}

/-- What an accepted image makes: the image as it is, empty RAM of the declared size and the bank
registers at their power-on values. -/
theorem ofImage_eq {image : ByteArray} {r : Logged Cartridge} (h : ofImage image = .ok r) :
    ∃ header banking, Header.parse image = .ok header ∧
      Banking.initial header image = .ok banking ∧
      r.value = { rom := image, ram := .replicate (boardRamSize header) 0, header, banking } := by
  unfold ofImage at h
  cases hp : Header.parse image with
  | error e =>
    rw [hp] at h
    cases h
  | ok header =>
    rw [hp] at h
    dsimp only [bind, Except.bind] at h
    cases hb : Banking.initial header image with
    | error e =>
      rw [hb] at h
      cases h
    | ok banking =>
      rw [hb] at h
      cases h
      exact ⟨header, banking, rfl, hb, rfl⟩

theorem boardRamSize_mbc2 {image : ByteArray} {header : Header}
    (hp : Header.parse image = .ok header) (hc : header.controller = .mbc2) :
    boardRamSize header = 0x200 := by
  have hcontroller : header.controller ≠ .romOnly := by
    rw [hc]
    decide
  rw [boardRamSize, if_neg hcontroller, Header.ramSize_mbc2 hp hc]

theorem ofImage_inRange {image : ByteArray} {r : Logged Cartridge} (hsize : image.size < 2 ^ 63)
    (h : ofImage image = .ok r) : r.value.InRange := by
  obtain ⟨header, banking, hp, hb, hr⟩ := ofImage_eq h
  rw [hr]
  exact {
    rom := hsize
    title := Header.titleBytes_length hp
    nibbles := Banking.initial_hasNibbleRam hb
    ram := fun hc => Array.size_replicate.trans (boardRamSize_mbc2 hp hc) }

theorem InRange.resetBanks (h : c.InRange) : c.resetBanks.InRange := by
  unfold Cartridge.resetBanks
  split
  · rename_i hb
    exact { h with nibbles := Banking.initial_hasNibbleRam hb }
  · exact h

end Cartridge

namespace BootPalettes

def checkedPaletteAt (start : Nat) : Checked (Vector UInt16 4) := do
  let color0 ← entry colors.toList start
  let color1 ← entry colors.toList (start + 1)
  let color2 ← entry colors.toList (start + 2)
  let color3 ← entry colors.toList (start + 3)
  return #v[color0, color1, color2, color3]

def checkedOfCombination (n : Nat) : Checked BootPalettes := do
  let (object0, object1, background) ← entry combinations.toList n
  let background ← checkedPaletteAt background
  let object0 ← checkedPaletteAt object0
  let object1 ← checkedPaletteAt object1
  return { background, object0, object1 }

def checkedCombination? (sum fourth : UInt8) : Checked (Option Nat) :=
  match titleSums.idxOf? sum with
  | none => return none
  | some place =>
    if place < firstShared then some <$> entry assigned.toList place
    else do
      let column ← minus place firstShared
      let i ← unsigned 64 (place + 14 * candidate column fourth)
      some <$> entry assigned.toList i

def checkedOfHeader (h : Header) : Checked BootPalettes :=
  if h.isFirstParty then do
    let fourth ← entry h.titleBytes 3
    match ← checkedCombination? h.titleSum fourth with
    | none => return standard
    | some n => checkedOfCombination n
  else return standard

theorem checkedPaletteAt_eq {start : Nat} (h : start + 3 < 120) :
    checkedPaletteAt start = .ok (paletteAt start) := by
  have hcolor : ∀ i, i < 120 → entry colors.toList i = .ok (colors.getD i 0) :=
    fun i hi => by
      rw [entry_ok (show i < colors.toList.length from hi), ← Array.getElem_eq_getD 0]
      rfl
  rw [checkedPaletteAt, hcolor _ (by omega), ok_bind, hcolor _ (by omega), ok_bind,
    hcolor _ (by omega), ok_bind, hcolor _ (by omega), ok_bind]
  rfl

/-- Every combination begins its palettes where four colors are left. -/
theorem combinations_lt :
    ∀ p ∈ combinations.toList, p.1 + 3 < 120 ∧ p.2.1 + 3 < 120 ∧ p.2.2 + 3 < 120 := by
  decide

theorem checkedOfCombination_eq {n : Nat} (h : n < 51) :
    checkedOfCombination n = .ok (ofCombination n) := by
  have hn : n < combinations.toList.length := h
  have hentry : combinations.getD n (0, 0, 0) = combinations.toList[n] :=
    (Array.getElem_eq_getD (0, 0, 0)).symm
  obtain ⟨h0, h1, h2⟩ := combinations_lt _ (List.getElem_mem hn)
  rw [checkedOfCombination, ofCombination, entry_ok hn, ok_bind, hentry]
  simp only [checkedPaletteAt_eq h0, checkedPaletteAt_eq h1, checkedPaletteAt_eq h2, ok_bind]
  rfl

theorem assigned_lt : ∀ n ∈ assigned.toList, n < 51 := by
  decide

/-- A row of candidates that fits has an entry in the column. -/
theorem candidate_lt {column : Nat} (h : column < 14) (fourth : UInt8) :
    firstShared + column + 14 * candidate column fourth < 94 := by
  unfold candidate firstShared
  cases hrow : fourthBytes.findIdx? fun row =>
      row.toList[column]?.map Char.toNat == some fourth.toNat with
  | none =>
    rw [Option.getD_none]
    omega
  | some row =>
    rw [Option.getD_some]
    obtain ⟨hlt, hfit, -⟩ := List.findIdx?_eq_some_iff_getElem.1 hrow
    have hrows : ∀ row, (hr : row < 3) → 65 + fourthBytes[row].toList.length + 14 * row ≤ 94 := by
      decide
    have hroom := hrows row hlt
    have hcolumn : column < fourthBytes[row].toList.length := by
      apply Decidable.byContradiction
      intro hout
      rw [List.getElem?_eq_none (Nat.not_lt.1 hout)] at hfit
      cases hfit
    omega

/-- A known sum has its place in the table; from `firstShared` on it is a column. -/
theorem titleSums_place {sum : UInt8} {place : Nat} (h : titleSums.idxOf? sum = some place) :
    place < 79 := by
  have hlt := (List.findIdx?_eq_some_iff_getElem.1 h).1
  exact hlt

theorem entry_assigned {i : Nat} (h : i < 94) :
    entry assigned.toList i = .ok (assigned.getD i 0) ∧ assigned.getD i 0 < 51 := by
  have hi : i < assigned.toList.length := h
  have hget : assigned.getD i 0 = assigned.toList[i] := (Array.getElem_eq_getD 0).symm
  rw [entry_ok hi, hget]
  exact ⟨rfl, assigned_lt _ (List.getElem_mem hi)⟩

theorem shared_place {place : Nat} (h : place < 79) (hshared : firstShared ≤ place)
    (fourth : UInt8) : place + 14 * candidate (place - firstShared) fourth < 94 := by
  have hcolumn : place - firstShared < 14 := by
    unfold firstShared
    omega
  have hlt := candidate_lt hcolumn fourth
  omega

theorem checkedCombination?_eq (sum fourth : UInt8) :
    checkedCombination? sum fourth = .ok (combination? sum fourth) := by
  unfold checkedCombination? combination?
  cases hplace : titleSums.idxOf? sum with
  | none => rfl
  | some place =>
    have hknown := titleSums_place hplace
    rw [Option.map_some]
    dsimp only
    split
    · rw [(entry_assigned (Nat.lt_trans hknown (by decide))).1]
      rfl
    · rename_i hge
      have hshared := Nat.not_lt.1 hge
      have hlt := shared_place hknown hshared fourth
      rw [minus_ok hshared, ok_bind, unsigned_ok (Nat.lt_trans hlt (by decide)), ok_bind,
        (entry_assigned hlt).1]
      rfl

theorem combination?_lt {sum fourth : UInt8} {n : Nat} (h : combination? sum fourth = some n) :
    n < 51 := by
  obtain ⟨place, hplace, rfl⟩ := Option.map_eq_some_iff.1 h
  have hknown := titleSums_place hplace
  split
  · exact (entry_assigned (Nat.lt_trans hknown (by decide))).2
  · rename_i hge
    exact (entry_assigned (shared_place hknown (Nat.not_lt.1 hge) fourth)).2

/-- **The palettes of every title are in the tables.** -/
theorem checkedOfHeader_eq {h : Header} (ht : h.titleBytes.length = 16) :
    checkedOfHeader h = .ok (ofHeader h) := by
  have hfourth : 3 < h.titleBytes.length := by omega
  have hget : h.titleBytes.getD 3 0 = h.titleBytes[3] := (List.getElem_eq_getD 0).symm
  unfold checkedOfHeader ofHeader
  cases h.isFirstParty with
  | false => rfl
  | true =>
    rw [if_pos rfl, if_pos rfl, entry_ok hfourth, ok_bind, checkedCombination?_eq, ok_bind, hget]
    cases hn : combination? h.titleSum h.titleBytes[3] with
    | none => rfl
    | some n => exact checkedOfCombination_eq (combination?_lt hn)

end BootPalettes

end Handheld
