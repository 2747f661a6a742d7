import SosFlow.Buffer.Unpack
import SosFlow.Lib.Exact

/-!
# The fields of a received message

A decoder is meant to read only the bytes that were received. `readFields` is a
call of `SOS_buffer_unpack` on these bytes alone, with each number as the word
and each string as the bytes it has on the wire. It returns just where the bytes
hold fields of the letters of the format (`readFields_exact`), and then reads what
the loop of `SOS_buffer_unpack` reads (`unpackLoop_received`).
-/

namespace SosFlow

open Mem (Holds Exact)

/-- **A field on the wire**. The bytes of a string are any, a zero among them. -/
inductive WireField where
  | int (v : CInt)
  | long (v : CLong)
  | guid (g : SosGuid)
  | double (w : BitVec 64)
  | str (s : List Byte)
deriving DecidableEq

namespace WireField

/-- The letter that asks for the field. -/
def letter : WireField → Char
  | int _ => 'i'
  | long _ => 'l'
  | guid _ => 'g'
  | double _ => 'd'
  | str _ => 's'

/-- The bytes of the field. -/
def enc : WireField → List Byte
  | int v => packi32 v
  | long v => packi64 v
  | guid g => packguid g
  | double w => packguid w
  | str s => packi32 (BitVec.ofNat 32 s.length) ++ s

/-- What `SOS_buffer_unpack` stores for the field. -/
def out [DoubleCodec] : WireField → Value
  | int v => .int v
  | long v => .long v
  | guid g => .guid g
  | double w => .double (DoubleCodec.unpack754 w)
  | str s => .str s

theorem enc_ne_nil (f : WireField) : f.enc ≠ [] := by
  cases f <;> simp [enc, packi32, packi64, packguid]

end WireField

/-- The bytes of some fields. -/
def encFields (fs : List WireField) : List Byte := fs.flatMap WireField.enc

/-! ## Reading -/

/-- One field, read from the bytes that were received. -/
def readField (m : List Byte) (c : Char) (p : ℕ) : Option (WireField × ℕ) :=
  if c = 'i' then do
    let v ← unpacki32 (← Mem.load m p 4)
    some (.int v, p + 4)
  else if c = 'l' then do
    let v ← unpacki64 (← Mem.load m p 8)
    some (.long v, p + 8)
  else if c = 'g' then do
    let g ← unpackguid (← Mem.load m p 8)
    some (.guid g, p + 8)
  else if c = 'd' then do
    let w ← unpackguid (← Mem.load m p 8)
    some (.double w, p + 8)
  else if c = 's' then do
    let len ← unpacki32 (← Mem.load m p 4)
    let s ← copyString m (p + 4) len.toNat
    some (.str s, p + 4 + len.toNat)
  else none

/-- **A call of `SOS_buffer_unpack`** on the bytes that were received. -/
def readFields (m : List Byte) : List Char → ℕ → Option (List WireField × ℕ)
  | [], p => some ([], p)
  | c :: format, p => do
    let (f, q) ← readField m c p
    let (fs, q) ← readFields m format q
    some (f :: fs, q)

variable {m : List Byte} {c : Char}

/-- The length in front of a string and the bytes behind it. -/
theorem readString_exact (hm : m.length ≤ intMax) :
    Exact m WireField.enc (fun f => f.letter = 's') (readField m 's') where
  reads := by
    intro p f hletter hholds
    cases f with
    | str s =>
        have hbound := hholds.bound (WireField.enc_ne_nil _)
        obtain ⟨hlen, hbytes⟩ := Mem.holds_append.mp hholds
        rw [WireField.enc, List.length_append, length_packi32] at hbound
        rw [length_packi32] at hbytes
        have hw : (BitVec.ofNat 32 s.length).toNat = s.length := by
          unfold intMax at hm
          rw [BitVec.toNat_ofNat]
          omega
        have hload : Mem.load m p 4 = some (packi32 (BitVec.ofNat 32 s.length)) :=
          Mem.load_of_holds hlen (by rw [length_packi32]; omega)
        have hcopy := copyString_of_holds hbytes (by omega)
        simp only [readField, Char.reduceEq, if_false, if_true, hload, Option.bind_eq_bind,
          Option.bind_some, unpacki32_packi32, hw, hcopy, WireField.enc, List.length_append,
          length_packi32, Nat.add_assoc]
    | _ => simp [WireField.letter] at hletter
  holds := by
    intro p f q hread
    simp only [readField, Char.reduceEq, if_false, if_true] at hread
    obtain ⟨bs, hload, hread⟩ := Option.bind_eq_some_iff.mp hread
    obtain ⟨len, hunpack, hread⟩ := Option.bind_eq_some_iff.mp hread
    obtain ⟨s, hcopy, hread⟩ := Option.bind_eq_some_iff.mp hread
    obtain ⟨rfl, rfl⟩ := Prod.mk.inj (Option.some.inj hread)
    obtain ⟨hin, -, hholds⟩ := Mem.load_some hload
    obtain ⟨hlen, hbytes, -⟩ := copyString_some hcopy hin
    have hw : BitVec.ofNat 32 s.length = len := by
      rw [hlen, BitVec.ofNat_toNat, BitVec.setWidth_eq]
    refine ⟨rfl, Mem.holds_append.mpr ⟨?_, ?_⟩, ?_⟩
    · rwa [hw, packi32_of_unpacki32 hunpack]
    · rwa [length_packi32]
    · rw [WireField.enc, List.length_append, length_packi32, hlen, Nat.add_assoc]

/-- **A field is read exactly** where its bytes are. -/
theorem readField_exact (hm : m.length ≤ intMax) (c : Char) :
    Exact m WireField.enc (fun f => f.letter = c) (readField m c) := by
  by_cases hi : c = 'i'
  · subst hi
    refine Mem.exact_word WireField.int (by decide) length_packi32 unpacki32_packi32
      packi32_of_unpacki32 (fun _ => rfl) fun f => ?_
    cases f <;> simp [WireField.letter]
  by_cases hl : c = 'l'
  · subst hl
    refine Mem.exact_word WireField.long (by decide) length_packi64 unpacki64_packi64
      packi64_of_unpacki64 (fun _ => rfl) fun f => ?_
    cases f <;> simp [WireField.letter]
  by_cases hg : c = 'g'
  · subst hg
    refine Mem.exact_word WireField.guid (by decide) length_packguid unpackguid_packguid
      packguid_of_unpackguid (fun _ => rfl) fun f => ?_
    cases f <;> simp [WireField.letter]
  by_cases hd : c = 'd'
  · subst hd
    refine Mem.exact_word WireField.double (by decide) length_packguid unpackguid_packguid
      packguid_of_unpackguid (fun _ => rfl) fun f => ?_
    cases f <;> simp [WireField.letter]
  by_cases hs : c = 's'
  · subst hs
    exact readString_exact hm
  · -- no other letter asks for a field
    have hnone : ∀ p, readField m c p = none := by
      intro p
      simp only [readField, if_neg hi, if_neg hl, if_neg hg, if_neg hd, if_neg hs]
    refine ⟨?_, fun hread => absurd hread (by simp [hnone])⟩
    rintro p f rfl -
    cases f <;> simp [WireField.letter] at hi hl hg hd hs

theorem readFields_cons (m : List Byte) (c : Char) (format : List Char) (p : ℕ) :
    readFields m (c :: format) p =
      (Mem.andThen (readField m c) (fun _ => readFields m format) p).map
        fun r => (r.1.1 :: r.1.2, r.2) := by
  simp only [readFields, Mem.andThen, Option.bind_eq_bind, Option.map_bind, Function.comp_def,
    Option.map_some]

/-- **The fields of a format are read exactly** where their bytes are. -/
theorem readFields_exact (hm : m.length ≤ intMax) (format : List Char) :
    Exact m encFields (fun fs => fs.map WireField.letter = format) (readFields m format) := by
  induction format with
  | nil =>
      refine ⟨?_, ?_⟩
      · rintro p fs hnil -
        obtain rfl := List.map_eq_nil_iff.mp hnil
        rfl
      · rintro p fs q hread
        obtain ⟨rfl, rfl⟩ := Prod.mk.inj (Option.some.inj hread)
        exact ⟨rfl, Mem.holds_nil, rfl⟩
  | cons c format ih =>
      have hboth := (readField_exact hm c).andThen fun _ _ => ih
      rw [show readFields m (c :: format) = _ from funext (readFields_cons m c format)]
      refine hboth.map (fun x => x.1 :: x.2) (fun _ => List.flatMap_cons) fun fs => ?_
      cases fs <;> simp

/-! ## The loop of the reader -/

/-- The letters of fields. -/
def fieldLetters : List Char := ['i', 'l', 'g', 'd', 's']

section

variable [DoubleCodec] {st : UnpackState}

/-- A number is read as the field with its word. -/
theorem fixed_received {α : Type} {unpack : List Byte → Option α} {value : α → Value}
    (field : α → WireField) (hout : ∀ v, (field v).out = value v) (n : ℕ) :
    (st.fixed m n fun bs => (unpack bs).map value).map (fun st' => (st'.outs, st'.buf)) =
      (do
        let v ← unpack (← Mem.load m st.buf n)
        some (field v, st.buf + n) : Option (WireField × ℕ)).map
          fun r => (st.outs ++ [some r.1.out], r.2) := by
  unfold UnpackState.fixed
  cases Mem.load m st.buf n with
  | none => rfl
  | some bytes =>
      simp only [Option.bind_eq_bind, Option.bind_some]
      cases unpack bytes with
      | none => rfl
      | some v =>
          simp only [Option.map_some, Option.bind_some, hout]
          rfl

/-- **A letter reads the field** that is received. -/
theorem unpackChar_received (hc : c ∈ fieldLetters) (hmax : st.maxlen = 0#32) :
    (unpackChar m st c).map (fun st' => (st'.outs, st'.buf)) =
      (readField m c st.buf).map fun r => (st.outs ++ [some r.1.out], r.2) := by
  simp only [fieldLetters, List.mem_cons, List.not_mem_nil, or_false] at hc
  rcases hc with rfl | rfl | rfl | rfl | rfl
  · exact fixed_received WireField.int (fun _ => rfl) 4
  · exact fixed_received WireField.long (fun _ => rfl) 8
  · exact fixed_received WireField.guid (fun _ => rfl) 8
  · exact fixed_received WireField.double (fun _ => rfl) 8
  · simp only [unpackChar, readField, UnpackState.readLen, Char.reduceEq, if_false, if_true, hmax]
    cases Mem.load m st.buf 4 with
    | none => rfl
    | some bytes =>
        simp only [Option.bind_eq_bind, Option.bind_some]
        cases unpacki32 bytes with
        | none => rfl
        | some len =>
            have hwhole : ¬ ((0#32 : BitVec 32) > 0 ∧ len > 0#32) := by simp
            simp only [Option.bind_some, if_neg hwhole]
            have hbuf : (st.advance 4).buf = st.buf + 4 := rfl
            rw [hbuf]
            cases copyString m (st.buf + 4) len.toNat with
            | none => rfl
            | some s => rfl

/-- **The loop reads the fields** that are received. -/
theorem unpackLoop_received {format : List Char} (hformat : ∀ c ∈ format, c ∈ fieldLetters)
    (hmax : st.maxlen = 0#32) :
    (unpackLoop m format st).map (fun st' => (st'.outs, st'.buf)) =
      (readFields m format st.buf).map
        fun r => (st.outs ++ r.1.map fun f => some f.out, r.2) := by
  induction format generalizing st with
  | nil => simp [unpackLoop, readFields]
  | cons c format ih =>
      rw [List.forall_mem_cons] at hformat
      have hfirst := unpackChar_received (m := m) hformat.1 hmax
      have hdigit : c.isDigit = false := by
        have hc := hformat.1
        simp only [fieldLetters, List.mem_cons, List.not_mem_nil, or_false] at hc
        rcases hc with rfl | rfl | rfl | rfl | rfl <;> rfl
      rw [unpackLoop, readFields]
      cases hread : readField m c st.buf with
      | none =>
          rw [hread, Option.map_none, Option.map_eq_none_iff] at hfirst
          rw [hfirst]
          rfl
      | some r =>
          rw [hread, Option.map_some] at hfirst
          obtain ⟨st₁, hchar, heq⟩ := Option.map_eq_some_iff.mp hfirst
          obtain ⟨houts, hbuf⟩ := Prod.mk.inj heq
          have hrest := @ih { st₁ with maxlen := 0#32 } hformat.2 rfl
          rw [hchar]
          simp only [Option.bind_eq_bind, Option.bind_some, hdigit, Bool.false_eq_true, if_false,
            Option.map_bind, Function.comp_def, Option.map_some, List.map_cons]
          refine hrest.trans ?_
          simp only [houts, hbuf, List.append_assoc, List.singleton_append]
          cases readFields m format r.2 <;> rfl

end

end SosFlow
