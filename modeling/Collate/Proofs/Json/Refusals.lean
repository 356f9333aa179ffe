import Collate.Proofs.Json.Records

/-!
# Values that are refused

A reader refuses a value (`Json.Reader.RefusesJson`) if it fails on what is written for it, with the
same error in either spacing.  A record is refused for the first of its members that is, the members
before it being read (`Json.Reader.refusesJson_of_member`), a list for the first of its items
(`Json.Reader.refusesJson_list`), and the object of a variant for any second member
(`Json.Reader.exists_refusesJson_variant`).  Where no container may begin every object is refused
(`Json.Reader.refusesJson_noRecord`).
-/

namespace Collate.Json.Reader

variable {α β σ : Type} {e : ReadError} {value : Json}

theorem bind_apply_error {r : Reader α} {next : α → Reader β} {bs : List UInt8}
    (h : r bs = .error e) : (r >>= next) bs = .error e := by
  show (r bs >>= fun p => next p.1 p.2) = _
  rw [h]
  rfl

/-- The reader fails on the value, in every spacing. -/
def RefusesJson (r : Reader α) (value : Json) (e : ReadError) : Prop :=
  ∀ spacing blanks rest, (∀ b ∈ blanks, isBlank b) → Stops rest →
    r (blanks ++ (written spacing value ++ rest)) = .error e

theorem RefusesJson.run {r : Reader α} (h : RefusesJson r value e) (spacing : Spacing) :
    r.run (written spacing value) = .error e := by
  have hr := h spacing [] [] (List.forall_mem_nil _) (fun b hb => by cases hb)
  rw [List.nil_append, List.append_nil] at hr
  rw [Reader.run, hr]
  rfl

/-! ### Members -/

/-- An object that goes on with the member is refused. -/
def RefusesMember (shape : Shape σ α) (draft : σ) (m : String × Json) (e : ReadError) : Prop :=
  ∀ (spacing : Spacing) fuel first bs rest, Stops rest →
    nextName first bs = .ok (true, Text.bytes (quote m.1) ++
      (Text.bytes spacing.colon ++ (written spacing m.2 ++ rest))) →
    members shape (fuel + 1) first draft bs = .error e

/-- A name is read, and the value after it is refused. -/
theorem refusesMember_of_value {shape : Shape σ α} {draft : σ} {m : Member σ} {name : String}
    (hfind : shape.members.find? (·.name = name) = some m) (hnew : m.isRead draft = false)
    (hrefuse : RefusesJson (m.read draft) value e) :
    RefusesMember shape draft (name, value) e := by
  intro spacing fuel first bs rest hstop hname
  obtain ⟨blanks, hblanks, hmembers⟩ := members_named hfind hnew spacing hname
  rw [hmembers, bind_apply_error (hrefuse spacing blanks rest hblanks hstop)]

/-- A record that allows no other members refuses a name that it does not know. -/
theorem refusesMember_of_closed {shape : Shape σ α} {draft : σ} {m : String × Json}
    (hclosed : shape.closed = true) (hfind : shape.members.find? (·.name = m.1) = none) :
    RefusesMember shape draft m (.unknownField m.1 (shape.members.map (·.name))) := by
  intro spacing fuel first bs rest _ hname
  rw [members, bind_apply hname, if_pos rfl, bind_apply (string_quote _ _)]
  simp only [hfind, hclosed]
  rfl

/-- The members before the one that is refused are read. -/
theorem members_error {shape : Shape σ α} {draft last : σ} {ms later : List (String × Json)}
    {m : String × Json} (h : Fills shape draft ms last) (hrefuse : RefusesMember shape last m e)
    (spacing : Spacing) {fuel : Nat} (hfuel : ms.length < fuel) (rest : List UInt8) :
    members shape fuel false draft
      (Text.bytes (renderMembers spacing.deeper (ms ++ m :: later)) ++
        (Text.bytes spacing.newline ++ byte '\x7d' :: rest)) = .error e := by
  induction h generalizing fuel with
  | nil draft =>
    obtain ⟨fuel, rfl⟩ := Nat.exists_eq_succ_of_ne_zero (Nat.ne_zero_of_lt hfuel)
    rw [List.nil_append, bytes_renderMembers_cons]
    simp only [List.cons_append, List.append_assoc]
    exact hrefuse _ _ _ _ _ (stops_renderMembers spacing _ rest)
      (nextName_comma (bytes_newline _) _ _)
  | cons hfind' hnew' hread _ ih =>
    obtain ⟨fuel, rfl⟩ := Nat.exists_eq_succ_of_ne_zero (Nat.ne_zero_of_lt hfuel)
    rw [List.cons_append, bytes_renderMembers_cons]
    simp only [List.cons_append, List.append_assoc]
    rw [members_step hfind' hnew' hread spacing.deeper (stops_renderMembers spacing _ rest)
      (nextName_comma (bytes_newline _) _ _)]
    exact ih hrefuse (Nat.lt_of_succ_lt_succ hfuel)

/-! ### Records -/

/-- A record is refused for the first of its members that is. -/
theorem refusesJson_of_member {title : String} {shape : Shape σ α} {last : σ}
    {ms : List (String × Json)} {m : String × Json} (h : Fills shape shape.start ms last)
    (hrefuse : RefusesMember shape last m e) (later : List (String × Json)) :
    RefusesJson (recordOf title shape) (.object (ms ++ m :: later)) e := by
  intro spacing blanks rest hblanks _
  have hmembers : ∃ bs, written spacing (.object (ms ++ m :: later)) ++ rest =
      byte '\x7b' :: bs ∧ members shape (bs.length + 1) true shape.start bs = .error e := by
    generalize shape.start = draft at h
    cases h with
    | nil =>
      refine ⟨_, by rw [List.nil_append, written_object_cons, List.cons_append], ?_⟩
      simp only [List.append_assoc, List.singleton_append]
      exact hrefuse _ _ _ _ _ (stops_renderMembers spacing _ rest)
        (nextName_first (bytes_newline _) _ _)
    | @cons _ next _ m' name' value' ms hfind' hnew' hread hrest =>
      refine ⟨_, by rw [List.cons_append, written_object_cons, List.cons_append], ?_⟩
      simp only [List.append_assoc, List.singleton_append]
      rw [members_step hfind' hnew' hread spacing.deeper (stops_renderMembers spacing _ rest)
        (nextName_first (bytes_newline _) _ _)]
      refine members_error hrest hrefuse spacing ?_ rest
      have := length_le_bytes_renderMembers spacing.deeper (ms ++ m :: later)
      simp only [List.length_append, List.length_cons] at this ⊢
      omega
  obtain ⟨bs, hbs, hread⟩ := hmembers
  rw [hbs, recordOf, bind_apply (next_apply hblanks rfl)]
  refine (bind_apply (drop_apply _ _)).trans ?_
  exact bind_apply_error (r := fun bs => members shape (bs.length + 1) true shape.start bs) hread

/-- A record is refused for the first value that is. -/
theorem refusesJson_recordOf {title : String} {shape : Shape σ α} {get : σ → Option β}
    {put : Option β → σ → σ} {reader : Reader β} {last : σ} {ms : List (String × Json)}
    {name : String} (h : Fills shape shape.start ms last)
    (hfind : shape.members.find? (·.name = name) = some (member name get put reader))
    (hnew : get last = none) (hrefuse : RefusesJson reader value e)
    (later : List (String × Json)) :
    RefusesJson (recordOf title shape) (.object (ms ++ (name, value) :: later)) e := by
  refine refusesJson_of_member h (refusesMember_of_value hfind ?_ ?_) later
  · show (get last).isSome = false
    rw [hnew]
    rfl
  · exact fun spacing blanks rest hblanks hstop =>
      bind_apply_error (hrefuse spacing blanks rest hblanks hstop)

/-- Where no container may begin, an object is refused. -/
theorem refusesJson_noRecord (title : String) (ms : List (String × Json)) :
    RefusesJson (noRecord title : Reader α) (.object ms) .tooDeep := by
  intro spacing blanks rest hblanks _
  obtain ⟨bs, hbs⟩ := exists_cons_written_object spacing ms
  rw [hbs, List.cons_append, noRecord, bind_apply (next_apply hblanks rfl)]
  rfl

/-- An object is no `null`. -/
theorem refusesJson_optional {reader : Reader α} {m : String × Json} {ms : List (String × Json)}
    (h : RefusesJson reader (.object (m :: ms)) e) :
    RefusesJson (optional reader) (.object (m :: ms)) e := by
  intro spacing blanks rest hblanks hstop
  have hread := h spacing [] rest (List.forall_mem_nil _) hstop
  rw [written_object_cons, List.nil_append] at hread
  rw [written_object_cons, optional, List.cons_append, bind_apply (skipBlanks_apply hblanks rfl)]
  show (reader >>= fun a => return some a) _ = _
  rw [List.cons_append] at hread
  rw [bind_apply_error hread]

/-! ### Lists -/

theorem items_step_error {item : Reader α} (hrefuse : RefusesJson item value e) (spacing : Spacing)
    {fuel : Nat} {first : Bool} {bs rest : List UInt8} (hstop : Stops rest)
    (hitem : nextItem first bs = .ok (true, written spacing value ++ rest)) :
    items item (fuel + 1) first bs = .error e := by
  rw [items, bind_apply hitem, if_pos rfl]
  exact bind_apply_error (hrefuse spacing [] rest (List.forall_mem_nil _) hstop)

/-- The items before the one that is refused are read. -/
theorem items_error {item : Reader α} {values later : List Json} {as : List α}
    (h : List.Forall₂ (ReadsJson item) values as) (hrefuse : RefusesJson item value e)
    (spacing : Spacing) {fuel : Nat} (hfuel : values.length < fuel) (rest : List UInt8) :
    items item fuel false (Text.bytes (renderItems spacing.deeper (values ++ value :: later)) ++
        (Text.bytes spacing.newline ++ byte ']' :: rest)) = .error e := by
  induction h generalizing fuel with
  | nil =>
    obtain ⟨fuel, rfl⟩ := Nat.exists_eq_succ_of_ne_zero (Nat.ne_zero_of_lt hfuel)
    rw [List.nil_append, bytes_renderItems_cons]
    simp only [List.cons_append, List.append_assoc]
    exact items_step_error hrefuse _ (stops_renderItems spacing _ rest)
      (nextItem_written (bytes_newline _) _ _ _).2
  | @cons value' a values as hvalue _ ih =>
    obtain ⟨fuel, rfl⟩ := Nat.exists_eq_succ_of_ne_zero (Nat.ne_zero_of_lt hfuel)
    rw [List.cons_append, bytes_renderItems_cons]
    simp only [List.cons_append, List.append_assoc]
    rw [items_step hvalue _ (stops_renderItems spacing _ rest)
      (nextItem_written (bytes_newline _) _ _ _).2,
      bind_apply_error (ih (Nat.lt_of_succ_lt_succ hfuel))]

/-- A list is refused for the first of its items that is. -/
theorem refusesJson_list {depth : Nat} {reader : Nat → Reader α} {values : List Json}
    {as : List α} (h : List.Forall₂ (ReadsJson (reader depth)) values as)
    (hrefuse : RefusesJson (reader depth) value e) (later : List Json) :
    RefusesJson (list (depth + 1) reader) (.array (values ++ value :: later)) e := by
  intro spacing blanks rest hblanks _
  have hitems : ∃ bs, written spacing (.array (values ++ value :: later)) ++ rest =
      byte '[' :: bs ∧ items (reader depth) (bs.length + 1) true bs = .error e := by
    cases h with
    | nil =>
      refine ⟨_, by rw [List.nil_append, written_array_cons, List.cons_append], ?_⟩
      simp only [List.append_assoc, List.singleton_append]
      exact items_step_error hrefuse _ (stops_renderItems spacing _ rest)
        (nextItem_written (bytes_newline _) _ _ _).1
    | @cons value' a values as hvalue hvalues =>
      refine ⟨_, by rw [List.cons_append, written_array_cons, List.cons_append], ?_⟩
      simp only [List.append_assoc, List.singleton_append]
      rw [items_step hvalue _ (stops_renderItems spacing _ rest)
        (nextItem_written (bytes_newline _) _ _ _).1,
        bind_apply_error (items_error hvalues hrefuse spacing ?_ rest)]
      have := length_le_bytes_renderItems spacing.deeper (values ++ value :: later)
      simp only [List.length_append, List.length_cons] at this ⊢
      omega
  obtain ⟨bs, hbs, hread⟩ := hitems
  rw [hbs, list, bind_apply (next_apply hblanks rfl)]
  refine (bind_apply (drop_apply _ _)).trans ?_
  exact hread

/-! ### Variants -/

/-- The error with which a written number is refused is that of its numeral. -/
theorem mismatch_number (title : String) {n : Int} {t : Numeral}
    (ht : ∀ rest, Stops rest →
      numeral .endInValue (Text.bytes (Text.decimal n) ++ rest) = .ok (t, rest))
    {rest : List UInt8} (hstop : Stops rest) :
    (mismatch title : Reader α) (Text.bytes (Text.decimal n) ++ rest) =
      (ofExcept t.number >>= fun m => fail (.invalidType m.found title)) rest := by
  have hnumber : number (Text.bytes (Text.decimal n) ++ rest) = ofExcept t.number rest := by
    rw [number, bind_apply (ht rest hstop)]
  obtain ⟨b, bs, hb, hfirst⟩ := exists_cons_bytes_decimal n
  rw [hb, List.cons_append] at hnumber ⊢
  have hother : ∀ c : Char, some (Char.ofUInt8 b) = some c → c = '-' ∨ c.isDigit := by
    rintro c hc
    rwa [← Option.some.inj hc]
  have hnext : (number >>= fun m => (fail (.invalidType m.found title) : Reader α))
      (b :: (bs ++ rest)) =
        (ofExcept t.number >>= fun m => fail (.invalidType m.found title)) rest := by
    show (number (b :: (bs ++ rest)) >>= _) = _
    rw [hnumber]
    rfl
  rw [mismatch, bind_apply (show peek? (b :: _) = .ok (some (Char.ofUInt8 b), _) from rfl)]
  refine (congrFun ?_ _).trans hnext
  split
  case h_7 => rw [if_pos (by simpa using hfirst)]
  all_goals next heq => exact absurd (hother _ heq) (by decide)

/-- What does not have the shape that is expected is refused, whatever it is. -/
theorem exists_mismatch (title : String) (value : Json) :
    ∃ e, ∀ spacing rest, Stops rest →
      (mismatch title : Reader α) (written spacing value ++ rest) = .error e := by
  cases value with
  | null => exact ⟨_, fun _ _ _ => rfl⟩
  | bool value => cases value <;> exact ⟨_, fun _ _ _ => rfl⟩
  | string s =>
    refine ⟨.invalidType (.string s) title, fun spacing rest _ => ?_⟩
    have hstring := string_quote s rest
    obtain ⟨bs, hbs⟩ := exists_cons_bytes_quote s
    rw [hbs, List.cons_append] at hstring
    rw [written, render, hbs, List.cons_append, mismatch,
      bind_apply (show peek? (_ :: _) = .ok (some '"', _) from rfl)]
    exact bind_apply hstring
  | array items =>
    refine ⟨.invalidType .sequence title, fun spacing rest _ => ?_⟩
    cases items with
    | nil => rfl
    | cons item items =>
      rw [written_array_cons]
      rfl
  | object members =>
    refine ⟨.invalidType .map title, fun spacing rest _ => ?_⟩
    rcases members with _ | ⟨⟨name, value⟩, members⟩
    · rfl
    · rw [written_object_cons]
      rfl
  | number n =>
    obtain ⟨ds, hbytes, hlt, -, hne, hhead⟩ := exists_bytes_decimal n
    have hnumeral : ∀ rest, Stops rest → numeral .endInValue
        (Text.bytes (Text.decimal n) ++ rest) = .ok (⟨n < 0, ds, [], none⟩, rest) := by
      intro rest hstop
      have happly := numeral_apply (n < 0) .endInValue hlt hne hhead hstop
      simp only [decide_eq_true_eq] at happly
      rw [hbytes, List.append_assoc, happly]
    cases hread : (⟨n < 0, ds, [], none⟩ : Numeral).number with
    | error e =>
      refine ⟨e, fun spacing rest hstop => ?_⟩
      rw [written, render, mismatch_number title hnumeral hstop, hread]
      rfl
    | ok m =>
      refine ⟨.invalidType m.found title, fun spacing rest hstop => ?_⟩
      rw [written, render, mismatch_number title hnumeral hstop, hread]
      rfl

/-- The payload of a variant without one is `null`, and nothing else. -/
theorem unitVariant_payload (name : String) (a : α) (depth : Nat) (value : Json) :
    ReadsJson ((unitVariant name a).payload depth) value a ∨
      ∃ e, RefusesJson ((unitVariant name a).payload depth) value e := by
  by_cases hnull : value = .null
  · subst hnull
    refine Or.inl fun spacing blanks rest hblanks _ => ?_
    have hwritten : written spacing .null ++ rest =
        byte 'n' :: ([byte 'u', byte 'l', byte 'l'] ++ rest) := rfl
    rw [hwritten]
    exact (bind_apply (next_apply hblanks rfl)).trans rfl
  · obtain ⟨e, he⟩ := exists_mismatch (α := α) "unit" value
    refine Or.inr ⟨e, fun spacing blanks rest hblanks hstop => ?_⟩
    obtain ⟨b, bs, hb, hblank, -⟩ := exists_cons_written spacing value
    have hmismatch := he spacing rest hstop
    rw [hb, List.cons_append] at hmismatch ⊢
    refine (bind_apply (next_apply hblanks hblank)).trans ?_
    rwa [if_neg fun hn => hnull (eq_null_of_written hb hn)]

variable {variants : List (Variant α)} {v : Variant α} {name : String} {depth : Nat}
  {ms : List (String × Json)}

theorem refusesJson_unknownVariant (hfind : variants.find? (·.name = name) = none) :
    RefusesJson (variant (depth + 1) variants) (.object ((name, value) :: ms))
      (.unknownVariant name (variants.map (·.name))) := by
  intro spacing blanks rest hblanks _
  rw [written_object_cons, variant, List.cons_append, bind_apply (next_apply hblanks rfl)]
  simp only [List.append_assoc, List.singleton_append]
  refine (bind_apply (drop_apply _ _)).trans (bind_apply_error ?_)
  have hstring := string_quote name (Text.bytes spacing.deeper.colon ++
    (written spacing.deeper value ++ (Text.bytes (renderMembers spacing.deeper ms) ++
      (Text.bytes spacing.newline ++ byte '\x7d' :: rest))))
  obtain ⟨bs, hbs⟩ := exists_cons_bytes_quote name
  rw [hbs, List.cons_append] at hstring ⊢
  rw [variantName, bind_apply (next_apply (bytes_newline _) rfl)]
  refine (bind_apply hstring).trans ?_
  rw [hfind]
  rfl

theorem refusesJson_payload (hfind : variants.find? (·.name = name) = some v)
    (hrefuse : RefusesJson (v.payload depth) value e) :
    RefusesJson (variant (depth + 1) variants) (.object ((name, value) :: ms)) e := by
  intro spacing blanks rest hblanks _
  obtain ⟨blanks', hblanks', hvariant⟩ := variant_named hfind spacing value ms hblanks rest
  rw [hvariant]
  exact bind_apply_error (hrefuse _ _ _ hblanks' (stops_renderMembers spacing ms rest))

/-- The object of a variant has one member. -/
theorem refusesJson_secondMember {a : α} (hfind : variants.find? (·.name = name) = some v)
    (hread : ReadsJson (v.payload depth) value a) (m : String × Json) :
    RefusesJson (variant (depth + 1) variants) (.object ((name, value) :: m :: ms))
      .expectedValue := by
  intro spacing blanks rest hblanks _
  obtain ⟨blanks', hblanks', hvariant⟩ := variant_named hfind spacing value (m :: ms) hblanks rest
  rw [hvariant, bind_apply (hread _ _ _ hblanks' (stops_renderMembers spacing (m :: ms) rest)),
    bytes_renderMembers_cons, List.cons_append, endVariant, bind_apply (next_cons rfl)]
  rfl

/-- The object of a variant is refused where it has a second member, as long as its first value is
settled either way. -/
theorem exists_refusesJson_variant (m : String × Json)
    (hpayload : ∀ v, variants.find? (·.name = name) = some v →
      (∃ a, ReadsJson (v.payload depth) value a) ∨ ∃ e, RefusesJson (v.payload depth) value e) :
    ∃ e, RefusesJson (variant (depth + 1) variants) (.object ((name, value) :: m :: ms)) e := by
  cases hfind : variants.find? (·.name = name) with
  | none => exact ⟨_, refusesJson_unknownVariant hfind⟩
  | some v =>
    rcases hpayload v hfind with ⟨a, hread⟩ | ⟨e, hrefuse⟩
    · exact ⟨_, refusesJson_secondMember hfind hread m⟩
    · exact ⟨e, refusesJson_payload hfind hrefuse⟩

end Collate.Json.Reader
