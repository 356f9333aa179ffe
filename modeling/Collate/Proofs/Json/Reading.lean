import Mathlib
import Collate.Json.Record
import Collate.Json.Value

/-!
# Reading what was written

A reader reads a value from a text (`Json.Reader.Reads`) if it takes the text away and answers with
the value, whatever blanks stand before the text and whatever follows it in a document.  This module
holds the steps of readers, and the bytes of ASCII texts.
-/

namespace Collate

/-! ### Bytes of texts -/

namespace Text

theorem bytes_eq_flatMap (s : String) : bytes s = s.toList.flatMap String.utf8EncodeChar := by
  have h : s.toByteArray = s.toList.utf8Encode := String.utf8Encode_toList.symm
  show s.toByteArray.data.toList = _
  rw [h]
  simp [List.utf8Encode]

theorem utf8EncodeChar_of_ascii {c : Char} (h : c.toNat < 128) :
    String.utf8EncodeChar c = [UInt8.ofNat c.toNat] := by
  have hle : c.val.toNat ≤ 0x7f := Nat.le_of_lt_succ h
  rw [String.utf8EncodeChar]
  exact if_pos hle

theorem ofUInt8_ofNat {c : Char} (h : c.toNat < 128) : Char.ofUInt8 (UInt8.ofNat c.toNat) = c := by
  have hmod : (UInt8.ofNat c.toNat).toNat = c.toNat := by
    rw [UInt8.toNat_ofNat']
    omega
  have hval : (Char.ofUInt8 (UInt8.ofNat c.toNat)).toNat = c.toNat := hmod
  exact Char.toNat_inj.1 hval

theorem bytes_ofList_of_ascii {cs : List Char} (h : ∀ c ∈ cs, c.toNat < 128) :
    bytes (String.ofList cs) = cs.map fun c => UInt8.ofNat c.toNat := by
  rw [bytes_eq_flatMap, String.toList_ofList]
  induction cs with
  | nil => rfl
  | cons c cs ih =>
    rw [List.forall_mem_cons] at h
    rw [List.flatMap_cons, List.map_cons, utf8EncodeChar_of_ascii h.1, ih h.2]
    rfl

end Text

namespace Json

namespace Reader

variable {α β : Type} {r : Reader α} {a : α}

/-! ### Steps -/

theorem bind_apply {next : α → Reader β} {bs rest : List UInt8} (h : r bs = .ok (a, rest)) :
    (r >>= next) bs = next a rest := by
  show (r bs >>= fun p => next p.1 p.2) = _
  rw [h]
  rfl

theorem next_apply {atEnd : ReadError} {blanks rest : List UInt8} {b : UInt8}
    (hblanks : ∀ b ∈ blanks, isBlank b) (hb : isBlank b = false) :
    next atEnd (blanks ++ b :: rest) = .ok (Char.ofUInt8 b, b :: rest) := by
  have hskip : skipBlanks (blanks ++ b :: rest) = .ok ((), b :: rest) := by
    rw [skipBlanks, List.dropWhile_append_of_pos hblanks, List.dropWhile_cons_of_neg (by simp [hb])]
  rw [next, bind_apply hskip]
  rfl

theorem next_cons {atEnd : ReadError} {rest : List UInt8} {b : UInt8} (hb : isBlank b = false) :
    next atEnd (b :: rest) = .ok (Char.ofUInt8 b, b :: rest) :=
  next_apply (List.forall_mem_nil _) hb

theorem drop_apply (b : UInt8) (rest : List UInt8) : drop (b :: rest) = .ok ((), rest) := rfl

/-! ### Reading -/

/-- What may follow a value in a document: nothing, or what ends a numeral. -/
def Stops (rest : List UInt8) : Prop :=
  ∀ b ∈ rest.head?, Char.ofUInt8 b ∈ [',', ']', '\x7d', '\n']

/-- The reader takes the text away, with the blanks before it, and answers with the value. -/
def Reads (r : Reader α) (text : List UInt8) (a : α) : Prop :=
  ∀ blanks rest, (∀ b ∈ blanks, isBlank b) → Stops rest →
    r (blanks ++ (text ++ rest)) = .ok (a, rest)

theorem Reads.run {text : List UInt8} (h : Reads r text a) : r.run text = .ok a := by
  have hr := h [] [] (List.forall_mem_nil _) (fun b hb => by cases hb)
  rw [List.nil_append, List.append_nil] at hr
  rw [Reader.run, hr]
  rfl

end Reader

end Json

end Collate
