import Collate.Proofs.Json.Refusals

/-!
# Values that are passed over

Whatever has been written is passed over to its end, however deep it nests
(`Json.Reader.skipValue_written`).  Strings are passed over because whoever checks less goes on
wherever a careful reader does (`Json.Reader.skipString_of_string`).
-/

namespace Collate.Json

/-! ### Strings -/

namespace StringState

/-- Where a reader stands that checks nothing, when a careful one stands here. -/
def unchecked : StringState → StringState
  | plain => plain
  | escape => escape
  | unit _ digits => unit none digits
  | pairEscape _ => plain
  | pairUnit _ => escape

theorem unchecked_afterUnit {leading : Option Nat} {n : Nat} {next : StringState}
    {out : List UInt8} (h : afterUnit true leading n = .ok (next, out)) :
    next.unchecked = plain := by
  cases leading <;> simp only [afterUnit, if_true] at h <;> split_ifs at h <;> cases h <;> rfl

theorem step_unchecked {state next : StringState} {b : UInt8} {out : List UInt8}
    (h : state.step true b = .ok (next, out)) :
    ∃ out', state.unchecked.step false b = .ok (next.unchecked, out') := by
  cases state with
  | plain =>
    rw [step] at h
    rw [unchecked, step]
    split_ifs at h ⊢ <;> cases h <;> exact ⟨_, rfl⟩
  | escape =>
    rw [step] at h
    rw [unchecked, step]
    split_ifs at h ⊢
    · cases h
      exact ⟨_, rfl⟩
    · cases hescaped : escaped? (Char.ofUInt8 b) <;> simp only [hescaped] at h ⊢ <;> cases h
      exact ⟨_, rfl⟩
  | unit leading digits =>
    rw [step] at h
    rw [unchecked, step]
    split_ifs at h ⊢
    · cases h
      exact ⟨_, rfl⟩
    · cases hunit : codeUnit? (digits ++ [Char.ofUInt8 b]) with
      | none =>
        rw [hunit] at h
        cases h
      | some n =>
        rw [hunit] at h
        rw [unchecked_afterUnit h]
        exact ⟨[], rfl⟩
  | pairEscape high =>
    rw [step] at h
    split_ifs at h with hb
    cases h
    have hcontrol : ¬b < 0x20 := by
      have hvalue : b.toNat = 92 := congrArg Char.toNat hb
      rw [UInt8.lt_iff_toNat_lt, hvalue]
      decide
    show ∃ out', plain.step false b = .ok (escape, out')
    rw [step, if_neg hcontrol, if_pos hb]
    exact ⟨_, rfl⟩
  | pairUnit high =>
    rw [step] at h
    split_ifs at h with hb
    cases h
    show ∃ out', escape.step false b = .ok (unit none [], out')
    rw [step, if_pos hb]
    exact ⟨_, rfl⟩

end StringState

namespace Reader

theorem stringBytes_unchecked {bs out rest : List UInt8} {state : StringState}
    {written : List UInt8} (h : stringBytes true state written bs = .ok (out, rest))
    (written' : List UInt8) :
    ∃ out', stringBytes false state.unchecked written' bs = .ok (out', rest) := by
  induction bs generalizing state written written' with
  | nil => cases h
  | cons b bs ih =>
    rw [stringBytes] at h
    split_ifs at h with hend
    · obtain ⟨rfl, hquote⟩ := hend
      cases h
      rw [StringState.unchecked, stringBytes, if_pos ⟨rfl, hquote⟩]
      exact ⟨_, rfl⟩
    · cases hstep : state.step true b with
      | error e =>
        rw [hstep] at h
        cases h
      | ok p =>
        obtain ⟨next, completed⟩ := p
        rw [hstep] at h
        -- Only a plain state is left at a quotation mark without an error.
        have hend' : ¬(state.unchecked = .plain ∧ Char.ofUInt8 b = '"') := by
          rintro ⟨hplain, hquote⟩
          cases state with
          | plain => exact hend ⟨rfl, hquote⟩
          | pairEscape high => simp [StringState.step, hquote] at hstep
          | escape => cases hplain
          | unit leading digits => cases hplain
          | pairUnit high => cases hplain
        obtain ⟨out', hout⟩ := StringState.step_unchecked hstep
        rw [stringBytes, if_neg hend', hout]
        exact ih h _

theorem discard_apply {α : Type} {r : Reader α} {a : α} {bs rest : List UInt8}
    (h : r bs = .ok (a, rest)) : (discard r : Reader Unit) bs = .ok ((), rest) := by
  show (r bs >>= fun p => pure ((), p.2)) = _
  rw [h]
  rfl

/-- A string that can be read can be passed over. -/
theorem skipString_of_string {s : String} {bs rest : List UInt8}
    (h : string bs = .ok (s, rest)) : skipString bs = .ok ((), rest) := by
  rw [string, bind_apply (show drop bs = .ok ((), bs.tail) from rfl)] at h
  cases hbytes : stringBytes true .plain [] bs.tail with
  | error e =>
    rw [bind_apply_error hbytes] at h
    cases h
  | ok p =>
    obtain ⟨out, rest'⟩ := p
    obtain ⟨out', hskip⟩ := stringBytes_unchecked hbytes []
    rw [bind_apply hbytes] at h
    cases hdecoded : Text.ofBytes? out with
    | none =>
      rw [hdecoded] at h
      cases h
    | some s' =>
      rw [hdecoded] at h
      cases h
      rw [skipString, bind_apply (show drop bs = .ok ((), bs.tail) from rfl)]
      exact discard_apply hskip

/-! ### Values without items -/

variable {blanks rest : List UInt8}

theorem skipAtom_null (hblanks : ∀ b ∈ blanks, isBlank b) (spacing : Spacing) :
    skipAtom (blanks ++ (written spacing .null ++ rest)) = .ok (none, rest) := by
  have hnull : written spacing .null ++ rest =
      byte 'n' :: ([byte 'u', byte 'l', byte 'l'] ++ rest) := rfl
  rw [hnull, skipAtom, bind_apply (next_apply hblanks rfl)]
  rfl

theorem skipAtom_bool (hblanks : ∀ b ∈ blanks, isBlank b) (spacing : Spacing) (value : Bool) :
    skipAtom (blanks ++ (written spacing (.bool value) ++ rest)) = .ok (none, rest) := by
  cases value with
  | true =>
    have htrue : written spacing (.bool true) ++ rest =
        byte 't' :: ([byte 'r', byte 'u', byte 'e'] ++ rest) := rfl
    rw [htrue, skipAtom, bind_apply (next_apply hblanks rfl)]
    rfl
  | false =>
    have hfalse : written spacing (.bool false) ++ rest =
        byte 'f' :: ([byte 'a', byte 'l', byte 's', byte 'e'] ++ rest) := rfl
    rw [hfalse, skipAtom, bind_apply (next_apply hblanks rfl)]
    rfl

theorem skipNumber_decimal (hstop : Stops rest) (n : Int) :
    skipNumber (Text.bytes (Text.decimal n) ++ rest) = .ok ((), rest) := by
  obtain ⟨ds, hbytes, hlt, -, hne, hhead⟩ := exists_bytes_decimal n
  have hnumeral := numeral_apply (n < 0) .invalidNumber hlt hne hhead hstop
  simp only [decide_eq_true_eq] at hnumeral
  rw [hbytes, List.append_assoc]
  exact discard_apply hnumeral

theorem skipAtom_number (hblanks : ∀ b ∈ blanks, isBlank b) (hstop : Stops rest)
    (spacing : Spacing) (n : Int) :
    skipAtom (blanks ++ (written spacing (.number n) ++ rest)) = .ok (none, rest) := by
  have hskip := skipNumber_decimal hstop n
  obtain ⟨b, bs, hb, hfirst⟩ := exists_cons_bytes_decimal n
  rw [hb, List.cons_append] at hskip
  rw [written, render, hb, List.cons_append, skipAtom,
    bind_apply (next_apply hblanks (isBlank_of_numeral hfirst))]
  have hother : ∀ c : Char, Char.ofUInt8 b = c → c = '-' ∨ c.isDigit := by
    rintro c rfl
    exact hfirst
  have hskipped : (do skipNumber; return none : Reader (Option Bracket)) (b :: (bs ++ rest)) =
      .ok (none, rest) := bind_apply hskip
  refine (congrFun ?_ _).trans hskipped
  split
  case h_7 => rw [if_pos hfirst]
  all_goals next heq => exact absurd (hother _ heq) (by decide)

theorem skipAtom_string (hblanks : ∀ b ∈ blanks, isBlank b) (spacing : Spacing) (s : String) :
    skipAtom (blanks ++ (written spacing (.string s) ++ rest)) = .ok (none, rest) := by
  have hskip := skipString_of_string (string_quote s rest)
  obtain ⟨bs, hbs⟩ := exists_cons_bytes_quote s
  rw [hbs, List.cons_append] at hskip
  rw [written, render, hbs, List.cons_append, skipAtom, bind_apply (next_apply hblanks rfl)]
  exact bind_apply hskip

/-! ### Containers -/

theorem skipFrom_open {fuel : Nat} {stack : List Bracket} {bs : List UInt8} {bracket : Bracket}
    (h : skipAtom bs = .ok (some bracket, rest)) :
    skipFrom (1 + fuel) .value stack bs = skipFrom fuel .firstItem (bracket :: stack) rest := by
  rw [Nat.add_comm, skipFrom, bind_apply h]

theorem skipAtom_bracket (hblanks : ∀ b ∈ blanks, isBlank b) :
    skipAtom (blanks ++ byte '[' :: rest) = .ok (some .list, rest) ∧
      skipAtom (blanks ++ byte '\x7b' :: rest) = .ok (some .object, rest) := by
  constructor <;> rw [skipAtom, bind_apply (next_apply hblanks rfl)] <;> rfl

theorem skipFrom_close {fuel : Nat} {awaited : Awaited} {stack : List Bracket} {bracket : Bracket}
    (hblanks : ∀ b ∈ blanks, isBlank b) (hawaited : awaited ≠ .value) :
    skipFrom (1 + fuel) awaited (bracket :: stack) (blanks ++ byte bracket.closing :: rest) =
      skipFrom fuel .comma stack rest := by
  have hblank : isBlank (byte bracket.closing) = false := by cases bracket <;> rfl
  have hclosing : Char.ofUInt8 (byte bracket.closing) = bracket.closing := by
    cases bracket <;> rfl
  rw [Nat.add_comm, skipFrom, bind_apply (next_apply hblanks hblank), if_pos hclosing]
  · exact bind_apply (drop_apply _ _)
  · exact hawaited

theorem skipFrom_first (bracket : Bracket) {fuel : Nat} {stack : List Bracket} {b : UInt8}
    {bs : List UInt8} (hblanks : ∀ b ∈ blanks, isBlank b) (hb : isBlank b = false)
    (hend : Char.ofUInt8 b ≠ bracket.closing) (h : beginItem bracket (b :: bs) = .ok ((), rest)) :
    skipFrom (1 + fuel) .firstItem (bracket :: stack) (blanks ++ b :: bs) =
      skipFrom fuel .value (bracket :: stack) rest := by
  rw [Nat.add_comm, skipFrom, bind_apply (next_apply hblanks hb), if_neg hend, if_pos rfl]
  · exact bind_apply h
  · simp

theorem skipFrom_comma (bracket : Bracket) {fuel : Nat} {stack : List Bracket} {bs : List UInt8}
    (h : beginItem bracket bs = .ok ((), rest)) :
    skipFrom (1 + fuel) .comma (bracket :: stack) (byte ',' :: bs) =
      skipFrom fuel .value (bracket :: stack) rest := by
  have hend : Char.ofUInt8 (byte ',') ≠ bracket.closing := by cases bracket <;> decide
  rw [Nat.add_comm, skipFrom, bind_apply (next_cons rfl), if_neg hend, if_neg (by decide),
    if_pos (by decide)]
  · exact (bind_apply (drop_apply _ _)).trans (bind_apply h)
  · simp

theorem skipName_apply (hblanks : ∀ b ∈ blanks, isBlank b) (spacing : Spacing) (name : String)
    (rest : List UInt8) : ∃ blanks', (∀ b ∈ blanks', isBlank b) ∧
      skipName (blanks ++ (Text.bytes (quote name) ++ (Text.bytes spacing.colon ++ rest))) =
        .ok ((), blanks' ++ rest) := by
  obtain ⟨blanks', hblanks', hcolon⟩ := colon_apply spacing rest
  have hskip := skipString_of_string (string_quote name (Text.bytes spacing.colon ++ rest))
  obtain ⟨bs, hbs⟩ := exists_cons_bytes_quote name
  rw [hbs, List.cons_append] at hskip ⊢
  refine ⟨blanks', hblanks', ?_⟩
  rw [skipName, bind_apply (next_apply hblanks rfl), if_pos (by decide)]
  exact (bind_apply hskip).trans hcolon

/-- A value is passed over in `count` steps, whatever brackets are open around it. -/
def PassesOver (count : Nat) (text : List UInt8) : Prop :=
  ∀ fuel stack blanks rest, (∀ b ∈ blanks, isBlank b) → Stops rest →
    skipFrom (count + fuel) .value stack (blanks ++ (text ++ rest)) =
      skipFrom fuel .comma stack rest

/-- What is left of a container after an item is passed over, up to the end of the container. -/
def PassesRest (count : Nat) (bracket : Bracket) (spacing : Spacing) (text : List UInt8) : Prop :=
  ∀ fuel stack rest,
    skipFrom (count + fuel) .comma (bracket :: stack)
        (text ++ (Text.bytes spacing.newline ++ byte bracket.closing :: rest)) =
      skipFrom fuel .comma stack rest

theorem PassesRest.nil (bracket : Bracket) (spacing : Spacing) :
    PassesRest 1 bracket spacing [] :=
  fun _ _ _ => skipFrom_close (bytes_newline spacing) (by decide)

theorem exists_passesOver_atom {spacing : Spacing} {value : Json}
    (h : ∀ blanks rest, (∀ b ∈ blanks, isBlank b) → Stops rest →
      skipAtom (blanks ++ (written spacing value ++ rest)) = .ok (none, rest)) :
    ∃ count ≤ 2 * (written spacing value).length, PassesOver count (written spacing value) := by
  refine ⟨1, ?_, fun fuel stack blanks rest hblanks hstop => ?_⟩
  · obtain ⟨b, bs, hb, -⟩ := exists_cons_written spacing value
    rw [hb, List.length_cons]
    omega
  · rw [Nat.add_comm, skipFrom, bind_apply (h blanks rest hblanks hstop)]

mutual

/-- The steps are at most twice the bytes. -/
theorem exists_passesOver (spacing : Spacing) : (value : Json) →
    ∃ count ≤ 2 * (written spacing value).length, PassesOver count (written spacing value)
  | .null => exists_passesOver_atom fun _ _ hblanks _ => skipAtom_null hblanks spacing
  | .bool value => exists_passesOver_atom fun _ _ hblanks _ => skipAtom_bool hblanks spacing value
  | .number n => exists_passesOver_atom fun _ _ hblanks hstop =>
    skipAtom_number hblanks hstop spacing n
  | .string s => exists_passesOver_atom fun _ _ hblanks _ => skipAtom_string hblanks spacing s
  | .array [] => by
    refine ⟨1 + 1, Nat.le_add_left _ _, fun fuel stack blanks rest hblanks _ => ?_⟩
    have hempty : written spacing (.array []) ++ rest = byte '[' :: byte ']' :: rest := rfl
    rw [hempty, Nat.add_assoc, skipFrom_open (skipAtom_bracket hblanks).1]
    exact skipFrom_close (List.forall_mem_nil _) (by decide)
  | .array (item :: items) => by
    obtain ⟨count, hcount, hitem⟩ := exists_passesOver spacing.deeper item
    obtain ⟨count', hcount', hitems⟩ := exists_passesRest_items spacing items
    refine ⟨1 + (1 + (count + count')), ?_, fun fuel stack blanks rest hblanks _ => ?_⟩
    · rw [written_array_cons]
      simp only [List.length_cons, List.length_append]
      omega
    · obtain ⟨b, bs, hb, hblank, hend⟩ := exists_cons_written spacing.deeper item
      have hvalue := hitem (count' + fuel) (.list :: stack) [] _ (List.forall_mem_nil _)
        (stops_renderItems spacing items rest)
      rw [List.nil_append, hb, List.cons_append] at hvalue
      rw [written_array_cons, hb]
      simp only [List.cons_append, List.append_assoc, List.nil_append, Nat.add_assoc]
      rw [skipFrom_open (skipAtom_bracket hblanks).1,
        skipFrom_first .list (bytes_newline _) hblank hend rfl, hvalue]
      exact hitems fuel stack rest
  | .object [] => by
    refine ⟨1 + 1, Nat.le_add_left _ _, fun fuel stack blanks rest hblanks _ => ?_⟩
    have hempty : written spacing (.object []) ++ rest = byte '\x7b' :: byte '\x7d' :: rest := rfl
    rw [hempty, Nat.add_assoc, skipFrom_open (skipAtom_bracket hblanks).2]
    exact skipFrom_close (List.forall_mem_nil _) (by decide)
  | .object ((name, value) :: members) => by
    obtain ⟨count, hcount, hvalue⟩ := exists_passesOver spacing.deeper value
    obtain ⟨count', hcount', hmembers⟩ := exists_passesRest_members spacing members
    refine ⟨1 + (1 + (count + count')), ?_, fun fuel stack blanks rest hblanks _ => ?_⟩
    · rw [written_object_cons]
      simp only [List.length_cons, List.length_append]
      omega
    · rw [written_object_cons]
      simp only [List.cons_append, List.append_assoc, List.nil_append, Nat.add_assoc]
      obtain ⟨blanks', hblanks', hname⟩ := skipName_apply (List.forall_mem_nil _)
        spacing.deeper name
        (written spacing.deeper value ++ (Text.bytes (renderMembers spacing.deeper members) ++
          (Text.bytes spacing.newline ++ byte '\x7d' :: rest)))
      obtain ⟨bs, hbs⟩ := exists_cons_bytes_quote name
      rw [hbs, List.cons_append, List.nil_append] at hname
      rw [hbs, List.cons_append, skipFrom_open (skipAtom_bracket hblanks).2,
        skipFrom_first .object (bytes_newline _) rfl (by decide) hname,
        hvalue _ _ _ _ hblanks' (stops_renderMembers spacing members rest)]
      exact hmembers fuel stack rest

theorem exists_passesRest_items (spacing : Spacing) : (items : List Json) →
    ∃ count ≤ 2 * (Text.bytes (renderItems spacing.deeper items)).length + 1,
      PassesRest count .list spacing (Text.bytes (renderItems spacing.deeper items))
  | [] => ⟨1, Nat.le_add_left _ _, .nil _ _⟩
  | item :: items => by
    obtain ⟨count, hcount, hitem⟩ := exists_passesOver spacing.deeper item
    obtain ⟨count', hcount', hitems⟩ := exists_passesRest_items spacing items
    refine ⟨1 + (count + count'), ?_, fun fuel stack rest => ?_⟩
    · rw [bytes_renderItems_cons]
      simp only [List.length_cons, List.length_append]
      omega
    · have hvalue := hitem (count' + fuel) (.list :: stack) _ _ (bytes_newline spacing.deeper)
        (stops_renderItems spacing items rest)
      rw [bytes_renderItems_cons]
      simp only [List.cons_append, List.append_assoc, Nat.add_assoc]
      exact (skipFrom_comma .list rfl).trans (hvalue.trans (hitems fuel stack rest))

theorem exists_passesRest_members (spacing : Spacing) : (members : List (String × Json)) →
    ∃ count ≤ 2 * (Text.bytes (renderMembers spacing.deeper members)).length + 1,
      PassesRest count .object spacing (Text.bytes (renderMembers spacing.deeper members))
  | [] => ⟨1, Nat.le_add_left _ _, .nil _ _⟩
  | (name, value) :: members => by
    obtain ⟨count, hcount, hvalue⟩ := exists_passesOver spacing.deeper value
    obtain ⟨count', hcount', hmembers⟩ := exists_passesRest_members spacing members
    refine ⟨1 + (count + count'), ?_, fun fuel stack rest => ?_⟩
    · rw [bytes_renderMembers_cons]
      simp only [List.length_cons, List.length_append]
      omega
    · rw [bytes_renderMembers_cons]
      simp only [List.cons_append, List.append_assoc, Nat.add_assoc]
      obtain ⟨blanks, hblanks, hname⟩ := skipName_apply (bytes_newline spacing.deeper)
        spacing.deeper name
        (written spacing.deeper value ++ (Text.bytes (renderMembers spacing.deeper members) ++
          (Text.bytes spacing.newline ++ byte '\x7d' :: rest)))
      refine (skipFrom_comma .object hname).trans ?_
      rw [hvalue _ _ _ _ hblanks (stops_renderMembers spacing members rest)]
      exact hmembers fuel stack rest

end

/-- Whatever has been written is passed over to its end. -/
theorem skipValue_written {blanks rest : List UInt8} (hblanks : ∀ b ∈ blanks, isBlank b)
    (hstop : Stops rest) (spacing : Spacing) (value : Json) :
    skipValue (blanks ++ (written spacing value ++ rest)) = .ok ((), rest) := by
  obtain ⟨count, hcount, hpass⟩ := exists_passesOver spacing value
  obtain ⟨fuel, hfuel⟩ : ∃ fuel, 3 * (blanks ++ (written spacing value ++ rest)).length + 3 =
      count + (fuel + 1) := by
    refine ⟨3 * (blanks ++ (written spacing value ++ rest)).length + 2 - count, ?_⟩
    simp only [List.length_append]
    omega
  rw [skipValue, hfuel, hpass _ _ _ _ hblanks hstop]
  rfl

end Reader

end Collate.Json
