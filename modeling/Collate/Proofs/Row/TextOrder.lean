import Collate.Proofs.Json.Reading
import Collate.Proofs.Row.Comparison

/-!
# The order of texts

Texts are compared by the bytes of their UTF-8 encoding.  The first byte of a character tells how
many follow, and those hold the last digits of its number to the base 64; so a character with a
smaller number comes before one with a greater number, whatever follows
(`Text.orderBytes_utf8EncodeChar`).  Hence the order of texts is that of their characters, by the
first that differs, and a text before its extensions (`Text.orderBytes_bytes`).
-/

namespace Collate

/-! ### Bytes -/

namespace Layout

theorem orderBytes_cons_of_lt {a b : UInt8} (h : a.toNat < b.toNat) (as bs : List UInt8) :
    orderBytes (a :: as) (b :: bs) = .lt := by
  rw [orderBytes, Nat.compare_eq_lt.2 h]
  rfl

theorem orderBytes_cons (a : UInt8) (as bs : List UInt8) :
    orderBytes (a :: as) (a :: bs) = orderBytes as bs := by
  rw [orderBytes, Nat.compare_eq_eq.2 rfl]
  rfl

/-- What bytes begin with in common does not count. -/
theorem orderBytes_append (front as bs : List UInt8) :
    orderBytes (front ++ as) (front ++ bs) = orderBytes as bs := by
  induction front with
  | nil => rfl
  | cons a front ih => rw [List.cons_append, List.cons_append, orderBytes_cons, ih]

theorem orderBytes_swap (as bs : List UInt8) : (orderBytes bs as).swap = orderBytes as bs :=
  Std.OrientedCmp.eq_swap.symm

theorem orderBytes_eq_iff {as bs : List UInt8} : orderBytes as bs = .eq ↔ as = bs := by
  induction as generalizing bs with
  | nil => cases bs <;> simp [orderBytes]
  | cons a as ih =>
    cases bs with
    | nil => simp [orderBytes]
    | cons b bs =>
      rw [orderBytes, Ordering.then_eq_eq, ih, Nat.compare_eq_eq, UInt8.toNat_inj, List.cons.injEq]

end Layout

/-! ### Characters -/

namespace Text

open Layout

/-- How many bytes stand behind the first one of a character. -/
def tailLength (n : Nat) : Nat :=
  if n ≤ 0x7f then 0 else if n ≤ 0x7ff then 1 else if n ≤ 0xffff then 2 else 3

/-- The smallest first byte of a character with so many bytes behind it. -/
def mark : (length : Nat) → Nat
  | 0 => 0
  | 1 => 0xc0
  | 2 => 0xe0
  | _ => 0xf0

/-- The first byte of a character: how many follow, and the top of its number. -/
def lead (n : Nat) : Nat := mark (tailLength n) + n / 64 ^ tailLength n

/-- The last digits of a number to the base 64, as the bytes that go on with a character. -/
def tail : (length n : Nat) → List UInt8
  | 0, _ => []
  | length + 1, n => .ofNat (n / 64 ^ length % 64 + 0x80) :: tail length n

variable {m n length : Nat}

theorem toNat_lt_bound (c : Char) : c.toNat < 0x110000 := by
  have h := c.valid
  simp only [UInt32.isValidChar, Nat.isValidChar] at h
  show c.val.toNat < _
  omega

theorem utf8EncodeChar_eq (c : Char) :
    String.utf8EncodeChar c = .ofNat (lead c.toNat) :: tail (tailLength c.toNat) c.toNat := by
  have hbound := toNat_lt_bound c
  have hval : c.val.toNat = c.toNat := rfl
  rw [String.utf8EncodeChar, hval]
  generalize c.toNat = n at hbound
  have htwo : n ≤ 0x7ff → n / 64 % 32 + 192 = 0xc0 + n / 64 := by omega
  have hthree : n ≤ 0xffff → n / 4096 % 16 + 224 = 0xe0 + n / 4096 := by omega
  have hfour : n / 262144 % 8 + 240 = 0xf0 + n / 262144 := by omega
  simp only [lead, tailLength]
  split_ifs with h1 h2 h3
  · simp [tail, mark]
  · simp [tail, mark, htwo h2]
  · simp [tail, mark, hthree h3]
  · simp [tail, mark, hfour]

theorem lead_lt_256 (hn : n < 0x110000) : lead n < 256 := by
  simp only [lead, tailLength]
  split_ifs <;> simp only [mark, Nat.reducePow] <;> omega

theorem lead_lt_of_tailLength_ne (h : m < n) (hne : tailLength m ≠ tailLength n)
    (hn : n < 0x110000) : lead m < lead n := by
  revert hne
  simp only [lead, tailLength]
  split_ifs <;> simp only [mark, Nat.reducePow] <;> omega

/-- Of two numbers the smaller has the smaller first byte, or smaller digits behind it. -/
theorem lead_lt_or (h : m < n) (hn : n < 0x110000) :
    lead m < lead n ∨ lead m = lead n ∧ tailLength m = tailLength n ∧
      m % 64 ^ tailLength n < n % 64 ^ tailLength n := by
  by_cases hlength : tailLength m = tailLength n
  · rw [lead, lead, hlength]
    generalize 64 ^ tailLength n = base
    have hm := Nat.div_add_mod m base
    have hn := Nat.div_add_mod n base
    rcases Nat.lt_or_eq_of_le (Nat.div_le_div_right (c := base) h.le) with hlt | heq
    · exact .inl (Nat.add_lt_add_left hlt _)
    · rw [heq] at hm ⊢
      exact .inr ⟨rfl, rfl, by omega⟩
  · exact .inl (lead_lt_of_tailLength_ne h hlength hn)

/-- As many digits come first if they are those of the smaller number. -/
theorem orderBytes_tail (h : m % 64 ^ length < n % 64 ^ length) (as bs : List UInt8) :
    orderBytes (tail length m ++ as) (tail length n ++ bs) = .lt := by
  have hbyte : ∀ d : Nat, (UInt8.ofNat (d % 64 + 0x80)).toNat = d % 64 + 0x80 := by
    intro d
    rw [UInt8.toNat_ofNat']
    omega
  induction length with
  | zero =>
    rw [Nat.pow_zero, Nat.mod_one, Nat.mod_one] at h
    exact absurd h (Nat.lt_irrefl 0)
  | succ length ih =>
    rw [Nat.pow_succ, Nat.mod_mul, Nat.mod_mul] at h
    have hm : m % 64 ^ length < 64 ^ length := Nat.mod_lt _ (Nat.pow_pos (by decide))
    rw [tail, tail, List.cons_append, List.cons_append]
    rcases Nat.lt_trichotomy (m / 64 ^ length % 64) (n / 64 ^ length % 64) with hlt | heq | hgt
    · refine orderBytes_cons_of_lt ?_ _ _
      rw [hbyte, hbyte]
      exact Nat.add_lt_add_right hlt _
    · rw [heq] at h ⊢
      rw [orderBytes_cons]
      exact ih (Nat.lt_of_add_lt_add_right h)
    · -- A greater digit outweighs all that follow it.
      have hn : n % 64 ^ length < 64 ^ length := Nat.mod_lt _ (Nat.pow_pos (by decide))
      have hmul := Nat.mul_le_mul_left (64 ^ length) (Nat.succ_le_of_lt hgt)
      rw [Nat.mul_succ] at hmul
      omega

/-- A character with a smaller number comes first, whatever follows. -/
theorem orderBytes_utf8EncodeChar {c d : Char} (h : c.toNat < d.toNat) (as bs : List UInt8) :
    orderBytes (String.utf8EncodeChar c ++ as) (String.utf8EncodeChar d ++ bs) = .lt := by
  have hc := lead_lt_256 (toNat_lt_bound c)
  have hd := lead_lt_256 (toNat_lt_bound d)
  rw [utf8EncodeChar_eq, utf8EncodeChar_eq, List.cons_append, List.cons_append]
  rcases lead_lt_or h (toNat_lt_bound d) with hlt | ⟨hlead, hlength, hrest⟩
  · refine orderBytes_cons_of_lt ?_ _ _
    rw [UInt8.toNat_ofNat_of_lt' hc, UInt8.toNat_ofNat_of_lt' hd]
    exact hlt
  · rw [hlead, hlength, orderBytes_cons]
    exact orderBytes_tail hrest as bs

/-! ### Texts -/

/-- The order of the bytes of texts is that of their characters. -/
theorem orderBytes_bytes (s t : String) :
    orderBytes (bytes s) (bytes t) = List.compareLex (compareOn Char.toNat) s.toList t.toList := by
  rw [bytes_eq_flatMap, bytes_eq_flatMap]
  generalize s.toList = cs
  generalize t.toList = ds
  induction cs generalizing ds with
  | nil =>
    cases ds with
    | nil => rfl
    | cons d ds =>
      rw [List.flatMap_cons, utf8EncodeChar_eq]
      rfl
  | cons c cs ih =>
    cases ds with
    | nil =>
      rw [List.flatMap_cons, utf8EncodeChar_eq]
      rfl
    | cons d ds =>
      rw [List.flatMap_cons, List.flatMap_cons, List.compareLex_cons_cons, compareOn]
      rcases Nat.lt_trichotomy c.toNat d.toNat with hlt | heq | hgt
      · rw [orderBytes_utf8EncodeChar hlt, Nat.compare_eq_lt.2 hlt]
        rfl
      · rw [Char.toNat_inj.1 heq, orderBytes_append, ih, Nat.compare_eq_eq.2 rfl]
        rfl
      · rw [← orderBytes_swap, orderBytes_utf8EncodeChar hgt, Nat.compare_eq_gt.2 hgt]
        rfl

theorem orderBytes_bytes_eq_iff {s t : String} : orderBytes (bytes s) (bytes t) = .eq ↔ s = t :=
  orderBytes_eq_iff.trans ⟨bytes_injective, congrArg bytes⟩

end Text

/-! ### Columns of texts -/

theorem ColumnType.layout_eq_text_iff {t : ColumnType} :
    t.layout = .text ↔ t = .utf8 ∨ t = .largeUtf8 := by
  cases t <;> simp [layout]

/-- The text that a value of a layout of texts is. -/
def Layout.textOf {l : Layout} (h : l = .text) (v : l.Value) : String := (h ▸ v : Layout.text.Value)

theorem Layout.order_eq_orderBytes {l : Layout} (h : l = .text) (v w : l.Value) :
    l.order v w = orderBytes (Text.bytes (textOf h v)) (Text.bytes (textOf h w)) := by
  subst h
  rfl

/-- Two texts in a column, of whatever batches, are compared by their characters: by the numbers of
the first that differ, and a text before its extensions.  They tie only if they are the same. -/
theorem ColumnBuffer.order?_of_texts {b : ColumnBuffer} (hb : b.type = .utf8 ∨ b.type = .largeUtf8)
    {x y : Address} {v w : b.type.Value} (hx : b.cell? x = some (some v))
    (hy : b.cell? y = some (some w)) :
    let text := Layout.textOf (ColumnType.layout_eq_text_iff.2 hb)
    b.order? x y = some (List.compareLex (compareOn Char.toNat) (text v).toList (text w).toList) ∧
      (b.order? x y = some .eq ↔ text v = text w) := by
  intro text
  have horder : b.order? x y =
      some (Layout.orderBytes (Text.bytes (text v)) (Text.bytes (text w))) := by
    rw [order?_of_cell? hx hy]
    exact congrArg some (Layout.order_eq_orderBytes _ v w)
  refine ⟨by rw [horder, Text.orderBytes_bytes], ?_⟩
  rw [horder, Option.some.injEq]
  exact Text.orderBytes_bytes_eq_iff

/-- Two batches with the last character of three bytes and one of four. -/
def farTexts : ColumnBuffer :=
  ⟨.largeUtf8, #[.ofArray #[none, some "\uffff"], .ofArray #[some "😀"]]⟩

/-- The character of four bytes comes last, although in UTF-16 it would come first. -/
theorem order?_farTexts : farTexts.cell? ⟨0, 1⟩ = some (some "\uffff") ∧
    farTexts.cell? ⟨1, 0⟩ = some (some "😀") ∧ farTexts.order? ⟨0, 1⟩ ⟨1, 0⟩ = some .lt := by
  have hx : farTexts.cell? ⟨0, 1⟩ = some (some "\uffff") := rfl
  have hy : farTexts.cell? ⟨1, 0⟩ = some (some "😀") := rfl
  refine ⟨hx, hy, (ColumnBuffer.order?_of_texts (.inr rfl) hx hy).1.trans ?_⟩
  decide

end Collate
