import Mathlib.Data.BitVec
import Mathlib.Tactic.Common

/-!
# UTF-8

Octets are UTF-8 if they are what some characters are encoded as. An octet
below 128 stands for itself wherever it is, and cuts the octets in two parts
that are UTF-8 exactly if the whole is (`isUtf8_cut`).
-/

namespace Utf8

/-- The octet of an ASCII character. -/
def ascii (c : Char) : BitVec 8 := BitVec.ofNat 8 c.toNat

/-- The octets of an ASCII text. -/
def text (s : String) : List (BitVec 8) := s.toList.map ascii

/-- The octets of a character. -/
def octets (c : Char) : List (BitVec 8) := (String.utf8EncodeChar c).map UInt8.toBitVec

/-- **The octets are UTF-8.** -/
def IsUtf8 (w : List (BitVec 8)) : Prop := ∃ cs : List Char, w = cs.flatMap octets

theorem length_octets_le (c : Char) : (octets c).length ≤ 4 := by
  rw [octets, List.length_map, String.length_utf8EncodeChar]
  exact c.utf8Size_le_four

/-- A character below 128 is its own octet. -/
theorem octets_low {c : Char} (h : c.toNat < 128) : octets c = [BitVec.ofNat 8 c.toNat] := by
  have hle : c.val.toNat ≤ 0x7f := by
    have hval : c.val.toNat = c.toNat := rfl
    omega
  rw [octets, String.utf8EncodeChar, if_pos hle]
  rfl

/-- The octets of any other are from 128 on. -/
theorem octets_high {c : Char} (h : 128 ≤ c.toNat) : ∀ x ∈ octets c, 128 ≤ x.toNat := by
  have hgt : ¬ c.val.toNat ≤ 0x7f := by
    have hval : c.val.toNat = c.toNat := rfl
    omega
  have hbyte : ∀ n, (UInt8.ofNat n).toBitVec.toNat = n % 256 := fun n => rfl
  intro x hx
  obtain ⟨y, hy, rfl⟩ := List.mem_map.mp hx
  rw [String.utf8EncodeChar, if_neg hgt] at hy
  split_ifs at hy <;> simp only [List.mem_cons, List.not_mem_nil, or_false] at hy <;>
    rcases hy with rfl | rfl | rfl | rfl <;> rw [hbyte] <;> omega

variable {a b : List (BitVec 8)}

theorem isUtf8_nil : IsUtf8 [] := ⟨[], rfl⟩

theorem IsUtf8.append (ha : IsUtf8 a) (hb : IsUtf8 b) : IsUtf8 (a ++ b) := by
  obtain ⟨cs, rfl⟩ := ha
  obtain ⟨ds, rfl⟩ := hb
  exact ⟨cs ++ ds, List.flatMap_append.symm⟩

theorem isUtf8_flatten {ws : List (List (BitVec 8))} (h : ∀ w ∈ ws, IsUtf8 w) :
    IsUtf8 ws.flatten := by
  induction ws with
  | nil => exact isUtf8_nil
  | cons w ws ih =>
      rw [List.forall_mem_cons] at h
      exact h.1.append (ih h.2)

/-- Octets below 128 are UTF-8. -/
theorem isUtf8_low (h : ∀ x ∈ a, x.toNat < 128) : IsUtf8 a := by
  refine ⟨a.map fun x => Char.ofNat x.toNat, ?_⟩
  induction a with
  | nil => rfl
  | cons x a ih =>
      rw [List.forall_mem_cons] at h
      have hvalid : Nat.isValidChar x.toNat := .inl (by omega)
      have hval : (Char.ofNat x.toNat).toNat = x.toNat := by
        rw [Char.ofNat, dif_pos hvalid]
        rfl
      rw [List.map_cons, List.flatMap_cons, ← ih h.2, octets_low (by omega), hval,
        BitVec.ofNat_toNat, BitVec.setWidth_eq, List.singleton_append]

/-- ASCII texts are UTF-8. -/
theorem isUtf8_text {s : String} (h : ∀ c ∈ s.toList, c.toNat < 128) : IsUtf8 (text s) := by
  refine isUtf8_low (List.forall_mem_map.mpr fun c hc => ?_)
  rw [ascii, BitVec.toNat_ofNat]
  exact (Nat.mod_le _ _).trans_lt (h c hc)

/-- **A low octet cuts** what is UTF-8. -/
theorem isUtf8_cut {x : BitVec 8} (hx : x.toNat < 128) :
    IsUtf8 (a ++ x :: b) ↔ IsUtf8 a ∧ IsUtf8 b := by
  constructor
  · rintro ⟨cs, hcs⟩
    induction cs generalizing a with
    | nil => exact absurd hcs (by simp)
    | cons c cs ih =>
        rw [List.flatMap_cons] at hcs
        by_cases hc : c.toNat < 128
        · rw [octets_low hc, List.singleton_append] at hcs
          cases a with
          | nil =>
              obtain ⟨-, rfl⟩ := List.cons.inj hcs
              exact ⟨isUtf8_nil, cs, rfl⟩
          | cons y a =>
              obtain ⟨rfl, hrest⟩ := List.cons.inj hcs
              obtain ⟨⟨ds, rfl⟩, hb⟩ := ih hrest
              refine ⟨⟨c :: ds, ?_⟩, hb⟩
              rw [List.flatMap_cons, octets_low hc, List.singleton_append]
        · -- no octet of the first character is low
          have hhigh := octets_high (not_lt.mp hc)
          rcases List.append_eq_append_iff.mp hcs with ⟨rest, hrest, htail⟩ | ⟨rest, rfl, htail⟩
          · cases rest with
            | nil =>
                rw [List.append_nil] at hrest
                obtain ⟨-, hb⟩ := ih (a := []) htail
                exact ⟨⟨[c], by rw [← hrest]; simp⟩, hb⟩
            | cons y rest =>
                obtain ⟨rfl, -⟩ := List.cons.inj htail
                have hmem := hhigh x (by rw [hrest]; simp)
                omega
          · obtain ⟨⟨ds, rfl⟩, hb⟩ := ih htail.symm
            exact ⟨⟨c :: ds, List.flatMap_cons.symm⟩, hb⟩
  · rintro ⟨ha, hb⟩
    have hone : IsUtf8 [x] := isUtf8_low (by simpa using hx)
    exact ha.append (hone.append hb)

/-- A low octet in front keeps it. -/
theorem IsUtf8.cons {x : BitVec 8} (hx : x.toNat < 128) (ha : IsUtf8 a) : IsUtf8 (x :: a) :=
  (isUtf8_cut (a := []) hx).mpr ⟨isUtf8_nil, ha⟩

end Utf8
