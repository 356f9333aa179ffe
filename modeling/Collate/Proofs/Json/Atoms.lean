import Collate.Proofs.Json.Reading

/-!
# Numbers and strings that were written

Numerals and quoted strings are read back as what they were written from
(`Json.Reader.reads_integer`, `Json.Reader.reads_text`).
-/

namespace Collate

/-! ### Digits -/

namespace Text

/-- A numeral is made of decimal digits and does not start with an idle zero. -/
theorem exists_digits (n : Nat) : ∃ ds : List Nat, decimalDigits n = ds.map digitChar ∧
    (∀ d ∈ ds, d < 10) ∧ Json.Numeral.value ds = n ∧ ds ≠ [] ∧ (ds.head? = some 0 → ds = [0]) := by
  fun_induction decimalDigits n with
  | case1 n h => exact ⟨[n], rfl, by simpa using h, by simp [Json.Numeral.value], by simp, by simp⟩
  | case2 n h ih =>
    obtain ⟨ds, hds, hlt, hvalue, hne, hhead⟩ := ih
    refine ⟨ds ++ [n % 10], ?_, ?_, ?_, by simp, ?_⟩
    · rw [hds, List.map_append, List.map_singleton]
    · intro d hd
      rcases List.mem_append.1 hd with hd | hd
      · exact hlt d hd
      · rw [List.mem_singleton.1 hd]
        omega
    · simp only [Json.Numeral.value, List.foldl_append, List.foldl_cons, List.foldl_nil] at hvalue ⊢
      omega
    · intro hzero
      rw [List.head?_append_of_ne_nil _ hne] at hzero
      rw [hhead hzero] at hvalue
      simp only [Json.Numeral.value, List.foldl_cons, List.foldl_nil] at hvalue
      omega

/-- The byte of a decimal digit. -/
def digitByte (d : Nat) : UInt8 := UInt8.ofNat (d + 48)

theorem toNat_digitChar {d : Nat} (h : d < 10) : (digitChar d).toNat = d + 48 := by
  revert d
  decide

theorem bytes_decimalDigits {n : Nat} {ds : List Nat} (h : decimalDigits n = ds.map digitChar)
    (hlt : ∀ d ∈ ds, d < 10) : bytes (String.ofList (decimalDigits n)) = ds.map digitByte := by
  rw [h, bytes_ofList_of_ascii, List.map_map]
  · refine List.map_congr_left fun d hd => ?_
    show UInt8.ofNat (digitChar d).toNat = _
    rw [toNat_digitChar (hlt d hd), digitByte]
  · intro c hc
    obtain ⟨d, hd, rfl⟩ := List.mem_map.1 hc
    rw [toNat_digitChar (hlt d hd)]
    have := hlt d hd
    omega

end Text

namespace Json

namespace Reader

open Text (digitByte)

theorem isDigit_digitByte {d : Nat} (h : d < 10) : isDigit (digitByte d) = true := by
  revert d
  decide

theorem toNat_digitByte_sub {d : Nat} (h : d < 10) : (digitByte d).toNat - 48 = d := by
  revert d
  decide

/-- A text that stops does not go on with a digit. -/
theorem Stops.not_isDigit {rest : List UInt8} (h : Stops rest) :
    ∀ b ∈ rest.head?, isDigit b = false := by
  intro b hb
  have hmem := h b hb
  simp only [List.mem_cons, List.not_mem_nil, or_false] at hmem
  rcases hmem with hb | hb | hb | hb <;> rw [isDigit, hb] <;> rfl

theorem Stops.peek {rest : List UInt8} (h : Stops rest) {c : Char}
    (hc : c ∉ [',', ']', '\x7d', '\n']) : rest.head?.map Char.ofUInt8 ≠ some c := by
  intro heq
  obtain ⟨b, hb, rfl⟩ := Option.map_eq_some_iff.1 heq
  exact hc (h b hb)

theorem digits_apply {ds : List Nat} {rest : List UInt8} (hds : ∀ d ∈ ds, d < 10)
    (hrest : ∀ b ∈ rest.head?, isDigit b = false) :
    digits (ds.map digitByte ++ rest) = .ok (ds, rest) := by
  have hall : ∀ b ∈ ds.map digitByte, isDigit b = true := by
    intro b hb
    obtain ⟨d, hd, rfl⟩ := List.mem_map.1 hb
    exact isDigit_digitByte (hds d hd)
  have htake : (ds.map digitByte ++ rest).takeWhile isDigit = ds.map digitByte := by
    rw [List.takeWhile_append_of_pos hall]
    cases rest with
    | nil => simp
    | cons b rest => rw [List.takeWhile_cons_of_neg (by simp [hrest b rfl]), List.append_nil]
  have hdrop : (ds.map digitByte ++ rest).dropWhile isDigit = rest := by
    rw [List.dropWhile_append_of_pos hall]
    cases rest with
    | nil => rfl
    | cons b rest => rw [List.dropWhile_cons_of_neg (by simp [hrest b rfl])]
  rw [digits, htake, hdrop, List.map_map]
  have hvalues : ds.map ((fun b => b.toNat - 48) ∘ digitByte) = ds := by
    conv_rhs => rw [← List.map_id ds]
    exact List.map_congr_left fun d hd => toNat_digitByte_sub (hds d hd)
  rw [hvalues]

theorem someDigits_apply {ds : List Nat} {rest : List UInt8} {atEnd : ReadError}
    (hds : ∀ d ∈ ds, d < 10) (hne : ds ≠ []) (hrest : ∀ b ∈ rest.head?, isDigit b = false) :
    someDigits atEnd (ds.map digitByte ++ rest) = .ok (ds, rest) := by
  rw [someDigits, bind_apply (digits_apply hds hrest)]
  cases ds with
  | nil => exact absurd rfl hne
  | cons d ds => rfl

theorem wholeDigits_apply {ds : List Nat} {rest : List UInt8} {atEnd : ReadError}
    (hds : ∀ d ∈ ds, d < 10) (hne : ds ≠ []) (hhead : ds.head? = some 0 → ds = [0])
    (hrest : ∀ b ∈ rest.head?, isDigit b = false) :
    wholeDigits atEnd (ds.map digitByte ++ rest) = .ok (ds, rest) := by
  rw [wholeDigits, bind_apply (someDigits_apply hds hne hrest)]
  rcases ds with _ | ⟨_ | d, _ | ⟨e, ds⟩⟩
  · exact absurd rfl hne
  · rfl
  · cases hhead rfl
  · rfl
  · rfl

/-- A number that is written with a sign and plain digits. -/
theorem numeral_apply (negative : Bool) (atEnd : ReadError) {ds : List Nat} {rest : List UInt8}
    (hds : ∀ d ∈ ds, d < 10) (hne : ds ≠ []) (hhead : ds.head? = some 0 → ds = [0])
    (hrest : Stops rest) :
    numeral atEnd
        ((if negative then [UInt8.ofNat '-'.toNat] else []) ++ (ds.map digitByte ++ rest)) =
      .ok (⟨negative, ds, [], none⟩, rest) := by
  have hwhole : wholeDigits atEnd (ds.map digitByte ++ rest) = .ok (ds, rest) :=
    wholeDigits_apply hds hne hhead hrest.not_isDigit
  have hfraction : fractionDigits atEnd rest = .ok ([], rest) := by
    rw [fractionDigits,
      bind_apply (show peek? rest = .ok (rest.head?.map Char.ofUInt8, rest) from rfl),
      if_neg (hrest.peek (by decide))]
    rfl
  have hexponent : exponentPart atEnd rest = .ok (none, rest) := by
    rw [exponentPart,
      bind_apply (show peek? rest = .ok (rest.head?.map Char.ofUInt8, rest) from rfl),
      if_neg (not_or.2 ⟨hrest.peek (by decide), hrest.peek (by decide)⟩)]
    rfl
  have hparts : ∀ sign : Bool, (do
      let whole ← wholeDigits atEnd
      let fraction ← fractionDigits atEnd
      let exponent ← exponentPart atEnd
      return ⟨sign, whole, fraction, exponent⟩ : Reader Numeral) (ds.map digitByte ++ rest) =
        .ok (⟨sign, ds, [], none⟩, rest) := by
    intro sign
    rw [bind_apply hwhole, bind_apply hfraction, bind_apply hexponent]
    rfl
  rw [numeral]
  cases negative with
  | true =>
    rw [if_pos rfl, List.singleton_append,
      bind_apply (show peek? (_ :: _) = .ok (some '-', _) from rfl), if_pos rfl]
    exact (bind_apply (drop_apply _ _)).trans (hparts true)
  | false =>
    obtain ⟨d, ds, rfl⟩ := List.exists_cons_of_ne_nil hne
    have hminus : Char.ofUInt8 (digitByte d) ≠ '-' := by
      have hdigit : (Char.ofUInt8 (digitByte d)).isDigit :=
        isDigit_digitByte (hds d List.mem_cons_self)
      intro heq
      rw [heq] at hdigit
      exact absurd hdigit (by decide)
    rw [if_neg (by decide), List.nil_append,
      bind_apply (show peek? _ = .ok (some (Char.ofUInt8 (digitByte d)), _) from rfl),
      if_neg (fun heq => hminus (Option.some.inj heq)),
      decide_eq_false (fun heq => hminus (Option.some.inj heq))]
    exact hparts false

theorem exists_bytes_decimal (n : Int) : ∃ ds : List Nat,
    Text.bytes (Text.decimal n) =
      (if n < 0 then [UInt8.ofNat '-'.toNat] else []) ++ ds.map digitByte ∧
    (∀ d ∈ ds, d < 10) ∧ Numeral.value ds = n.natAbs ∧ ds ≠ [] ∧
      (ds.head? = some 0 → ds = [0]) := by
  obtain ⟨ds, hds, hlt, hvalue, hne, hhead⟩ := Text.exists_digits n.natAbs
  refine ⟨ds, ?_, hlt, hvalue, hne, hhead⟩
  cases n with
  | ofNat n => exact Text.bytes_decimalDigits hds hlt
  | negSucc n =>
    have hsplit : Text.decimal (.negSucc n) =
        "-" ++ String.ofList (Text.decimalDigits (n + 1)) := by
      refine String.toList_injective ?_
      rw [Text.decimal, String.toList_append]
      simp
    have hdigits : Text.bytes (String.ofList (Text.decimalDigits (n + 1))) = ds.map digitByte :=
      Text.bytes_decimalDigits hds hlt
    rw [hsplit, Text.bytes_append, hdigits, if_pos (Int.negSucc_lt_zero n)]
    rfl

theorem exists_cons_bytes_decimal (n : Int) : ∃ b bs, Text.bytes (Text.decimal n) = b :: bs ∧
    (Char.ofUInt8 b = '-' ∨ (Char.ofUInt8 b).isDigit) := by
  obtain ⟨ds, hbytes, hlt, -, hne, -⟩ := exists_bytes_decimal n
  by_cases hneg : n < 0
  · rw [if_pos hneg] at hbytes
    exact ⟨_, _, hbytes, Or.inl rfl⟩
  · obtain ⟨d, ds, rfl⟩ := List.exists_cons_of_ne_nil hne
    rw [if_neg hneg] at hbytes
    exact ⟨_, _, hbytes, Or.inr (isDigit_digitByte (hlt d List.mem_cons_self))⟩

theorem isBlank_of_numeral {b : UInt8} (h : Char.ofUInt8 b = '-' ∨ (Char.ofUInt8 b).isDigit) :
    isBlank b = false := by
  rw [isBlank]
  split <;> simp_all

theorem number_numeral {n : Int} {ds : List Nat} (hvalue : Numeral.value ds = n.natAbs)
    (hmin : -2 ^ 63 ≤ n) (hmax : n < 2 ^ 64) :
    (⟨n < 0, ds, [], none⟩ : Numeral).number = .ok (.integer n) := by
  have hinteger : (⟨n < 0, ds, [], none⟩ : Numeral).integer? = some n := by
    simp only [Numeral.integer?, and_self, if_true, hvalue, decide_eq_true_eq]
    split_ifs with hneg hsmall hsmall
    · rw [Option.some_inj]
      omega
    · omega
    · rw [Option.some_inj]
      omega
    · omega
  rw [Numeral.number, hinteger]

/-- An integer of 64 bits is read back. -/
theorem reads_integer {title : String} {low high n : Int} (hlow : low ≤ n) (hhigh : n < high)
    (hmin : -2 ^ 63 ≤ n) (hmax : n < 2 ^ 64) :
    Reads (integer title low high) (Text.bytes (Text.decimal n)) n := by
  intro blanks rest hblanks hrest
  obtain ⟨ds, hbytes, hlt, hvalue, hne, hhead⟩ := exists_bytes_decimal n
  have hnumber : number (Text.bytes (Text.decimal n) ++ rest) = .ok (.integer n, rest) := by
    have hnumeral := numeral_apply (n < 0) .endInValue hlt hne hhead hrest
    simp only [decide_eq_true_eq] at hnumeral
    rw [hbytes, List.append_assoc, number, bind_apply hnumeral, number_numeral hvalue hmin hmax]
    rfl
  obtain ⟨b, bs, hb, hfirst⟩ := exists_cons_bytes_decimal n
  rw [hb] at hnumber ⊢
  rw [integer, List.cons_append, bind_apply (next_apply hblanks (isBlank_of_numeral hfirst)),
    if_pos hfirst]
  refine (bind_apply hnumber).trans ?_
  show (if low ≤ n ∧ n < high then (return n : Reader Int) else _) rest = _
  rw [if_pos ⟨hlow, hhigh⟩]
  rfl

/-- A natural number below a limit of at most 64 bits is read back. -/
theorem reads_natural {title : String} {bits n : Nat} (hbits : bits ≤ 64) (hn : n < 2 ^ bits) :
    Reads (natural title bits) (Text.bytes (Text.decimal n)) n := by
  intro blanks rest hblanks hrest
  have hmax : n < 2 ^ 64 := Nat.lt_of_lt_of_le hn (Nat.pow_le_pow_right (by decide) hbits)
  have hread : integer title 0 (2 ^ bits) (blanks ++ (Text.bytes (Text.decimal n) ++ rest)) =
      .ok ((n : Int), rest) :=
    reads_integer (Int.natCast_nonneg n) (by exact_mod_cast hn) (by omega) (by exact_mod_cast hmax)
      blanks rest hblanks hrest
  rw [natural, bind_apply hread]
  rfl

/-! ### Strings -/

/-- A byte of a string that stands for itself. -/
def IsPlain (b : UInt8) : Prop :=
  ¬b < 0x20 ∧ Char.ofUInt8 b ≠ '\\' ∧ Char.ofUInt8 b ≠ '"'

theorem stringBytes_plain {bs written tail : List UInt8} (h : ∀ b ∈ bs, IsPlain b) :
    stringBytes true .plain written (bs ++ tail) =
      stringBytes true .plain (bs.reverse ++ written) tail := by
  induction bs generalizing written with
  | nil => rfl
  | cons b bs ih =>
    obtain ⟨⟨hcontrol, hbackslash, hquote⟩, hbs⟩ := List.forall_mem_cons.1 h
    rw [List.cons_append, stringBytes, if_neg (fun h => hquote h.2), StringState.step,
      if_neg hcontrol, if_neg hbackslash]
    show stringBytes true .plain ([b].reverse ++ written) (bs ++ tail) = _
    rw [ih hbs]
    simp

theorem isPlain_of_mem_utf8EncodeChar {c : Char} (hcontrol : ¬c.toNat < 0x20)
    (hbackslash : c ≠ '\\') (hquote : c ≠ '"') {b : UInt8}
    (hb : b ∈ String.utf8EncodeChar c) : IsPlain b := by
  by_cases hascii : c.toNat < 128
  · rw [Text.utf8EncodeChar_of_ascii hascii, List.mem_singleton] at hb
    subst hb
    have hlt : ¬UInt8.ofNat c.toNat < 0x20 := by
      rw [UInt8.lt_iff_toNat_lt, UInt8.toNat_ofNat']
      show ¬c.toNat % 256 < 32
      omega
    rw [IsPlain, Text.ofUInt8_ofNat hascii]
    exact ⟨hlt, hbackslash, hquote⟩
  · have hhigh : 128 ≤ b.toNat := by
      have hval : ¬c.val.toNat ≤ 0x7f := fun h => hascii (Nat.lt_succ_of_le h)
      rw [String.utf8EncodeChar] at hb
      simp only [if_neg hval] at hb
      split_ifs at hb <;> simp only [List.mem_cons, List.not_mem_nil, or_false] at hb
      · rcases hb with rfl | rfl <;> rw [UInt8.toNat_ofNat'] <;> omega
      · rcases hb with rfl | rfl | rfl <;> rw [UInt8.toNat_ofNat'] <;> omega
      · rcases hb with rfl | rfl | rfl | rfl <;> rw [UInt8.toNat_ofNat'] <;> omega
    have hne : ∀ d : Char, d.toNat < 128 → Char.ofUInt8 b ≠ d := by
      rintro d hd rfl
      exact absurd hhigh (Nat.not_le_of_lt hd)
    refine ⟨?_, hne _ (by decide), hne _ (by decide)⟩
    rw [UInt8.lt_iff_toNat_lt]
    show ¬b.toNat < 32
    omega

theorem codeUnit?_digits {n : Nat} (h : n < 32) :
    StringState.codeUnit? (Hex.digits 4 n) = some n := by
  revert n
  decide

theorem toNat_digit_lt (n : Nat) : (Hex.digit (n % 16)).toNat < 128 := by
  have all : ∀ d < 16, (Hex.digit d).toNat < 128 := by decide
  exact all _ (Nat.mod_lt _ (by decide))

/-- A control character is written by its code unit. -/
theorem stringBytes_codeUnit {n : Nat} (h : n < 32) (written tail : List UInt8) :
    stringBytes true .plain written
        (('\\' :: 'u' :: Hex.digits 4 n).flatMap String.utf8EncodeChar ++ tail) =
      stringBytes true .plain ((StringState.encoded n).reverse ++ written) tail := by
  have hunit := codeUnit?_digits h
  rw [show Hex.digits 4 n = [Hex.digit (n / 16 / 16 / 16 % 16), Hex.digit (n / 16 / 16 % 16),
    Hex.digit (n / 16 % 16), Hex.digit (n % 16)] from rfl] at hunit ⊢
  simp only [List.flatMap_cons, List.flatMap_nil, Text.utf8EncodeChar_of_ascii (toNat_digit_lt _)]
  show stringBytes true (.unit none []) written (_ ++ tail) = _
  have hafter : StringState.afterUnit true none n = .ok (.plain, StringState.encoded n) := by
    rw [StringState.afterUnit, if_pos rfl]
    show (if _ then _ else _) = _
    rw [if_neg (by omega), if_neg (by omega)]
  simp [stringBytes, StringState.step, Text.ofUInt8_ofNat (toNat_digit_lt _), hunit, hafter]

theorem stringBytes_escapeChar (c : Char) (written tail : List UInt8) :
    stringBytes true .plain written ((escapeChar c).flatMap String.utf8EncodeChar ++ tail) =
      stringBytes true .plain ((String.utf8EncodeChar c).reverse ++ written) tail := by
  unfold escapeChar
  split
  · rfl
  · rfl
  · rfl
  · rfl
  · rfl
  · rfl
  · rfl
  · next hquote hbackslash _ _ _ _ _ =>
    split_ifs with hcontrol
    · rw [stringBytes_codeUnit hcontrol, StringState.encoded, Char.ofNat_toNat]
    · rw [List.flatMap_singleton]
      exact stringBytes_plain fun b hb =>
        isPlain_of_mem_utf8EncodeChar hcontrol (fun h => hbackslash h) (fun h => hquote h) hb

theorem stringBytes_flatMap_escapeChar (cs : List Char) (written rest : List UInt8) :
    stringBytes true .plain written
        ((cs.flatMap escapeChar).flatMap String.utf8EncodeChar ++ UInt8.ofNat '"'.toNat :: rest) =
      .ok (written.reverse ++ cs.flatMap String.utf8EncodeChar, rest) := by
  induction cs generalizing written with
  | nil =>
    rw [List.flatMap_nil, List.flatMap_nil, List.append_nil]
    rfl
  | cons c cs ih =>
    rw [List.flatMap_cons, List.flatMap_append, List.append_assoc, stringBytes_escapeChar, ih,
      List.flatMap_cons, List.reverse_append, List.reverse_reverse, List.append_assoc]

/-- A quoted string is read back. -/
theorem string_quote (s : String) (rest : List UInt8) :
    string (Text.bytes (quote s) ++ rest) = .ok (s, rest) := by
  have hquote : Text.bytes (quote s) ++ rest = UInt8.ofNat '"'.toNat ::
      ((s.toList.flatMap escapeChar).flatMap String.utf8EncodeChar ++
        UInt8.ofNat '"'.toNat :: rest) := by
    rw [quote, Text.bytes_eq_flatMap, String.toList_ofList, List.flatMap_cons, List.flatMap_append]
    simp [Text.utf8EncodeChar_of_ascii]
  rw [hquote, string, bind_apply (drop_apply _ _),
    bind_apply (stringBytes_flatMap_escapeChar _ _ _), List.reverse_nil, List.nil_append,
    ← Text.bytes_eq_flatMap, Text.ofBytes?_bytes]
  rfl

theorem exists_cons_bytes_quote (s : String) :
    ∃ bs, Text.bytes (quote s) = UInt8.ofNat '"'.toNat :: bs := by
  rw [quote, Text.bytes_eq_flatMap, String.toList_ofList, List.flatMap_cons]
  exact ⟨_, rfl⟩

theorem reads_text {title s : String} : Reads (text title) (Text.bytes (quote s)) s := by
  intro blanks rest hblanks _
  have hstring := string_quote s rest
  obtain ⟨bs, hbs⟩ := exists_cons_bytes_quote s
  rw [hbs, List.cons_append] at hstring ⊢
  rw [text, bind_apply (next_apply hblanks rfl)]
  exact hstring

end Reader

end Json

end Collate
