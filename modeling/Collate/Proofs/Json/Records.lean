import Collate.Proofs.Json.Containers

/-!
# Records and variants that were written

A record is read back where the members of its object fill a draft that is the record
(`Json.Reader.readsJson_recordOf`), and a variant is read back from its name, or from an object with
its payload (`Json.Reader.readsJson_variant`, `Json.Reader.readsJson_payload`).
-/

namespace Collate.Json.Reader

variable {α β σ : Type}

/-! ### Names -/

theorem nextName_end {first : Bool} {blanks rest : List UInt8} (hblanks : ∀ b ∈ blanks, isBlank b) :
    nextName first (blanks ++ byte '\x7d' :: rest) = .ok (false, byte '\x7d' :: rest) := by
  rw [nextName, bind_apply (next_apply hblanks rfl)]
  rfl

theorem nextName_first {blanks : List UInt8} (hblanks : ∀ b ∈ blanks, isBlank b) (name : String)
    (rest : List UInt8) : nextName true (blanks ++ (Text.bytes (quote name) ++ rest)) =
      .ok (true, Text.bytes (quote name) ++ rest) := by
  obtain ⟨bs, hbs⟩ := exists_cons_bytes_quote name
  rw [hbs, List.cons_append, nextName, bind_apply (next_apply hblanks rfl)]
  rfl

theorem nextName_comma {blanks : List UInt8} (hblanks : ∀ b ∈ blanks, isBlank b) (name : String)
    (rest : List UInt8) :
    nextName false (byte ',' :: (blanks ++ (Text.bytes (quote name) ++ rest))) =
      .ok (true, Text.bytes (quote name) ++ rest) := by
  obtain ⟨bs, hbs⟩ := exists_cons_bytes_quote name
  rw [hbs, List.cons_append, nextName, bind_apply (next_cons rfl)]
  show (drop >>= fun _ => _) (byte ',' :: _) = _
  rw [bind_apply (drop_apply _ _), bind_apply (next_apply hblanks rfl)]
  rfl

theorem colon_apply (spacing : Spacing) (rest : List UInt8) : ∃ blanks,
    (∀ b ∈ blanks, isBlank b) ∧
      colon (Text.bytes spacing.colon ++ rest) = .ok ((), blanks ++ rest) := by
  obtain ⟨blanks, hblanks, hcolon⟩ := bytes_colon spacing
  refine ⟨blanks, hblanks, ?_⟩
  rw [hcolon, List.cons_append, colon, bind_apply (next_cons rfl)]
  rfl

/-! ### Members -/

/-- The members of an object fill a draft. -/
inductive Fills (shape : Shape σ α) : σ → List (String × Json) → σ → Prop
  | nil (draft : σ) : Fills shape draft [] draft
  | cons {draft next last : σ} {m : Member σ} {name : String} {value : Json}
      {members : List (String × Json)} (hfind : shape.members.find? (·.name = name) = some m)
      (hnew : m.isRead draft = false) (hread : ReadsJson (m.read draft) value next)
      (hrest : Fills shape next members last) : Fills shape draft ((name, value) :: members) last

theorem Fills.member {shape : Shape σ α} {get : σ → Option β} {put : Option β → σ → σ}
    {reader : Reader β} {draft last : σ} {name : String} {value : Json} {b : β}
    {members : List (String × Json)}
    (hfind : shape.members.find? (·.name = name) = some (member name get put reader))
    (hnew : get draft = none) (hread : ReadsJson reader value b)
    (hrest : Fills shape (put (some b) draft) members last) :
    Fills shape draft ((name, value) :: members) last := by
  refine .cons hfind ?_ ?_ hrest
  · show (get draft).isSome = false
    rw [hnew]
    rfl
  · intro spacing blanks rest hblanks hstop
    show (reader >>= fun a => return put (some a) draft) _ = _
    rw [bind_apply (hread spacing blanks rest hblanks hstop)]
    rfl

theorem Fills.append {shape : Shape σ α} {draft next last : σ} {ms ms' : List (String × Json)}
    (h : Fills shape draft ms next) (h' : Fills shape next ms' last) :
    Fills shape draft (ms ++ ms') last := by
  induction h with
  | nil draft => exact h'
  | cons hfind hnew hread _ ih => exact .cons hfind hnew hread (ih h')

theorem stops_renderMembers (spacing : Spacing) (members : List (String × Json))
    (rest : List UInt8) :
    Stops (Text.bytes (renderMembers spacing.deeper members) ++
      (Text.bytes spacing.newline ++ byte '\x7d' :: rest)) := by
  rcases members with _ | ⟨⟨name, value⟩, members⟩
  · exact stops_newline spacing (by decide)
  · rw [bytes_renderMembers_cons]
    exact stops_cons (by decide)

theorem length_le_bytes_renderMembers (spacing : Spacing) (members : List (String × Json)) :
    members.length ≤ (Text.bytes (renderMembers spacing members)).length := by
  induction members with
  | nil => exact Nat.zero_le _
  | cons m members ih =>
    obtain ⟨name, value⟩ := m
    rw [bytes_renderMembers_cons, List.length_cons, List.length_cons]
    simp only [List.length_append]
    omega

/-- The name of a member is taken away with the colon behind it, and the member reads on. -/
theorem members_named {shape : Shape σ α} {draft : σ} {m : Member σ} {name : String}
    (hfind : shape.members.find? (·.name = name) = some m) (hnew : m.isRead draft = false)
    (spacing : Spacing) {fuel : Nat} {first : Bool} {bs rest : List UInt8}
    (hname : nextName first bs = .ok (true, Text.bytes (quote name) ++
      (Text.bytes spacing.colon ++ rest))) :
    ∃ blanks, (∀ b ∈ blanks, isBlank b) ∧ members shape (fuel + 1) first draft bs =
      (m.read draft >>= members shape fuel false) (blanks ++ rest) := by
  obtain ⟨blanks, hblanks, hcolon⟩ := colon_apply spacing rest
  refine ⟨blanks, hblanks, ?_⟩
  rw [members, bind_apply hname, if_pos rfl, bind_apply (string_quote _ _)]
  simp only [hfind, hnew]
  exact bind_apply hcolon

/-- A name and a value are read, after which the other members are. -/
theorem members_step {shape : Shape σ α} {draft next : σ} {m : Member σ} {name : String}
    {value : Json} (hfind : shape.members.find? (·.name = name) = some m)
    (hnew : m.isRead draft = false) (hread : ReadsJson (m.read draft) value next)
    (spacing : Spacing) {fuel : Nat} {first : Bool} {bs rest : List UInt8} (hstop : Stops rest)
    (hname : nextName first bs = .ok (true, Text.bytes (quote name) ++
      (Text.bytes spacing.colon ++ (written spacing value ++ rest)))) :
    members shape (fuel + 1) first draft bs = members shape fuel false next rest := by
  obtain ⟨blanks, hblanks, hmembers⟩ := members_named hfind hnew spacing hname
  rw [hmembers, bind_apply (hread spacing blanks rest hblanks hstop)]

theorem members_apply {shape : Shape σ α} {draft last : σ} {ms : List (String × Json)}
    (h : Fills shape draft ms last) (spacing : Spacing) {fuel : Nat} (hfuel : ms.length < fuel)
    (rest : List UInt8) :
    members shape fuel false draft (Text.bytes (renderMembers spacing.deeper ms) ++
        (Text.bytes spacing.newline ++ byte '\x7d' :: rest)) = .ok (last, rest) := by
  induction h generalizing fuel with
  | nil draft =>
    obtain ⟨fuel, rfl⟩ := Nat.exists_eq_succ_of_ne_zero (Nat.ne_zero_of_lt hfuel)
    show members shape (fuel + 1) false draft
      (Text.bytes spacing.newline ++ byte '\x7d' :: rest) = _
    rw [members, bind_apply (nextName_end (bytes_newline spacing))]
    rfl
  | cons hfind hnew hread hrest ih =>
    obtain ⟨fuel, rfl⟩ := Nat.exists_eq_succ_of_ne_zero (Nat.ne_zero_of_lt hfuel)
    rw [bytes_renderMembers_cons]
    simp only [List.cons_append, List.append_assoc]
    rw [members_step hfind hnew hread spacing.deeper (stops_renderMembers spacing _ rest)
      (nextName_comma (bytes_newline _) _ _)]
    exact ih (Nat.lt_of_succ_lt_succ hfuel)

/-- A record is read back where the members of its object fill a draft of it. -/
theorem readsJson_recordOf {title : String} {shape : Shape σ α} {ms : List (String × Json)} {a : α}
    (h : ∃ last, Fills shape shape.start ms last ∧ shape.finish last = .ok a) :
    ReadsJson (recordOf title shape) (.object ms) a := by
  intro spacing blanks rest hblanks _
  obtain ⟨last, h, hfinish⟩ := h
  have hmembers : ∃ bs, written spacing (.object ms) ++ rest = byte '\x7b' :: bs ∧
      members shape (bs.length + 1) true shape.start bs = .ok (last, rest) := by
    generalize shape.start = draft at h
    cases h with
    | nil => exact ⟨_, rfl, rfl⟩
    | @cons _ next _ m name value ms hfind hnew hread hrest =>
      refine ⟨_, by rw [written_object_cons, List.cons_append], ?_⟩
      simp only [List.append_assoc, List.singleton_append]
      rw [members_step hfind hnew hread spacing.deeper (stops_renderMembers spacing _ rest)
        (nextName_first (bytes_newline _) _ _)]
      refine members_apply hrest spacing ?_ rest
      have := length_le_bytes_renderMembers spacing.deeper ms
      simp only [List.length_append, List.length_cons]
      omega
  obtain ⟨bs, hbs, hread⟩ := hmembers
  rw [hbs, recordOf, bind_apply (next_apply hblanks rfl)]
  refine (bind_apply (drop_apply _ _)).trans ?_
  refine (bind_apply (r := fun bs => members shape (bs.length + 1) true shape.start bs)
    hread).trans ?_
  rw [hfinish]
  rfl

theorem readsJson_record {title : String} {shape : Nat → Shape σ α} {ms : List (String × Json)}
    {a : α} {depth : Nat}
    (h : ∃ last, Fills (shape depth) (shape depth).start ms last ∧
      (shape depth).finish last = .ok a) :
    ReadsJson (record (depth + 1) title shape) (.object ms) a :=
  readsJson_recordOf h

/-! ### Optional values -/

theorem skipBlanks_apply {blanks rest : List UInt8} {b : UInt8} (hblanks : ∀ b ∈ blanks, isBlank b)
    (hb : isBlank b = false) : skipBlanks (blanks ++ b :: rest) = .ok ((), b :: rest) := by
  rw [skipBlanks, List.dropWhile_append_of_pos hblanks, List.dropWhile_cons_of_neg (by simp [hb])]

theorem readsJson_null (reader : Reader α) : ReadsJson (optional reader) .null none := by
  intro spacing blanks rest hblanks _
  have hnull : written spacing .null ++ rest =
      byte 'n' :: ([byte 'u', byte 'l', byte 'l'] ++ rest) := rfl
  rw [hnull, optional, bind_apply (skipBlanks_apply hblanks rfl)]
  rfl

/-- What is not `null` is read as a value. -/
theorem readsJson_some {reader : Reader α} {value : Json} {a : α} (hvalue : value ≠ .null)
    (h : ReadsJson reader value a) : ReadsJson (optional reader) value (some a) := by
  intro spacing blanks rest hblanks hstop
  have hread := h spacing [] rest (List.forall_mem_nil _) hstop
  obtain ⟨b, bs, hwritten, hblank, -⟩ := exists_cons_written spacing value
  have hfirst : some (Char.ofUInt8 b) ≠ some 'n' := fun heq =>
    hvalue (eq_null_of_written hwritten (Option.some.inj heq))
  rw [hwritten, List.nil_append, List.cons_append] at hread
  rw [hwritten, List.cons_append, optional, bind_apply (skipBlanks_apply hblanks hblank)]
  have hpeek : peek? (b :: (bs ++ rest)) = .ok (some (Char.ofUInt8 b), b :: (bs ++ rest)) := rfl
  rw [bind_apply hpeek, if_neg hfirst, bind_apply hread]
  rfl

/-! ### Variants -/

theorem variantName_apply {variants : List (Variant α)} {v : Variant α} {name : String}
    {blanks : List UInt8} (hblanks : ∀ b ∈ blanks, isBlank b)
    (hfind : variants.find? (·.name = name) = some v) (rest : List UInt8) :
    variantName variants (blanks ++ (Text.bytes (quote name) ++ rest)) = .ok (v, rest) := by
  have hstring := string_quote name rest
  obtain ⟨bs, hbs⟩ := exists_cons_bytes_quote name
  rw [hbs, List.cons_append] at hstring ⊢
  rw [variantName, bind_apply (next_apply hblanks rfl)]
  refine (bind_apply hstring).trans ?_
  rw [hfind]
  rfl

/-- A variant without a payload is read back from its name. -/
theorem readsJson_variant {variants : List (Variant α)} {depth : Nat} {name : String} {a : α}
    (hfind : variants.find? (·.name = name) = some (unitVariant name a)) :
    ReadsJson (variant depth variants) (.string name) a := by
  intro spacing blanks rest hblanks _
  have hname : variantName variants (Text.bytes (quote name) ++ rest) =
      .ok (unitVariant name a, rest) := variantName_apply (List.forall_mem_nil _) hfind rest
  obtain ⟨bs, hbs⟩ := exists_cons_bytes_quote name
  rw [hbs] at hname
  rw [written, render, hbs, variant.eq_def, List.cons_append, bind_apply (next_apply hblanks rfl)]
  show (variantName variants >>= fun v => v.plain) _ = _
  rw [← List.cons_append, bind_apply hname]
  rfl

/-- Ends the object of a variant, which has no second member. -/
def endVariant (a : α) : Reader α := do
  if (← next .endInObject) = '\x7d' then
    drop
    return a
  else fail .expectedValue

/-- The name of a variant is taken away with the colon behind it, and its payload reads on. -/
theorem variant_named {variants : List (Variant α)} {depth : Nat} {v : Variant α} {name : String}
    (hfind : variants.find? (·.name = name) = some v) (spacing : Spacing) (value : Json)
    (ms : List (String × Json)) {blanks : List UInt8} (hblanks : ∀ b ∈ blanks, isBlank b)
    (rest : List UInt8) :
    ∃ blanks', (∀ b ∈ blanks', isBlank b) ∧
      variant (depth + 1) variants
          (blanks ++ (written spacing (.object ((name, value) :: ms)) ++ rest)) =
        (v.payload depth >>= endVariant) (blanks' ++ (written spacing.deeper value ++
          (Text.bytes (renderMembers spacing.deeper ms) ++
            (Text.bytes spacing.newline ++ byte '\x7d' :: rest)))) := by
  obtain ⟨blanks', hblanks', hcolon⟩ := colon_apply spacing.deeper
    (written spacing.deeper value ++ (Text.bytes (renderMembers spacing.deeper ms) ++
      (Text.bytes spacing.newline ++ byte '\x7d' :: rest)))
  refine ⟨blanks', hblanks', ?_⟩
  rw [written_object_cons, variant, List.cons_append, bind_apply (next_apply hblanks rfl)]
  simp only [List.append_assoc, List.singleton_append]
  refine (bind_apply (drop_apply _ _)).trans ?_
  rw [bind_apply (variantName_apply (bytes_newline _) hfind _)]
  exact bind_apply hcolon

/-- A variant with a payload is read back from an object. -/
theorem readsJson_payload {variants : List (Variant α)} {depth : Nat} {v : Variant α} {value : Json}
    {a : α} (hfind : variants.find? (·.name = v.name) = some v)
    (hread : ReadsJson (v.payload depth) value a) :
    ReadsJson (variant (depth + 1) variants) (.object [(v.name, value)]) a := by
  intro spacing blanks rest hblanks _
  obtain ⟨blanks', hblanks', hvariant⟩ := variant_named hfind spacing value [] hblanks rest
  rw [hvariant, bind_apply (hread _ _ _ hblanks' (stops_renderMembers spacing [] rest))]
  show (next .endInObject >>= _) (Text.bytes spacing.newline ++ byte '\x7d' :: rest) = _
  rw [bind_apply (next_apply (bytes_newline _) rfl)]
  rfl

end Collate.Json.Reader
