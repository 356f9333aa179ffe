import Collate.Proofs.Json.Refusals
import Collate.Proofs.Json.Skipping

/-!
# Members that nobody knows

What readers make of a value in which one object has got a further member
(`Json.Extended`).  A reader overlooks further members (`Json.Reader.Overlooks`) if it reads the
same as before wherever the object allows other members, and fails wherever it does not; there is a
rule for each way in which readers are put together.  A record that allows other members passes
over their values as if it had members of these names (`Json.Reader.Shape.ignoring`).
-/

namespace Collate.Json

/-! ### Further members -/

/-- A step from a value to a part of it. -/
inductive Step
  | member (name : String)
  | item (index : Nat)
  deriving DecidableEq, Repr

/-- The second value is the first one with a further member in the object at the path, under a name
that the object does not have. -/
inductive Extended (m : String × Json) : List Step → Json → Json → Prop
  | here {before after : List (String × Json)} (hnew : ∀ m' ∈ before ++ after, m'.1 ≠ m.1) :
    Extended m [] (.object (before ++ after)) (.object (before ++ m :: after))
  | member {path : List Step} {name : String} {value value' : Json}
    {before after : List (String × Json)} (h : Extended m path value value') :
    Extended m (.member name :: path) (.object (before ++ (name, value) :: after))
      (.object (before ++ (name, value') :: after))
  | item {path : List Step} {value value' : Json} {before after : List Json}
    (h : Extended m path value value') :
    Extended m (.item before.length :: path) (.array (before ++ value :: after))
      (.array (before ++ value' :: after))

/-- Whether what stands at a path is closed to other members: `start` says so of the value itself,
`closed` of the value of a member. -/
def closedAt (closed : String → Bool) : (start : Bool) → List Step → Bool
  | start, [] => start
  | _, .member name :: path => closedAt closed (closed name) path
  | _, .item _ :: path => closedAt closed false path

/-- A value without parts. -/
def isAtom : Json → Bool
  | array _ | object _ => false
  | _ => true

variable {m : String × Json} {path : List Step} {value value' : Json}

theorem Extended.isAtom_eq_false (h : Extended m path value value') : value.isAtom = false := by
  cases h <;> rfl

theorem Extended.exists_object {m' : String × Json} {ms : List (String × Json)}
    (h : Extended m path (.object (m' :: ms)) value') :
    ∃ first later, value' = .object (first :: later) := by
  generalize hvalue : Json.object (m' :: ms) = value at h
  cases h with
  | item => cases hvalue
  | @here before after => cases before <;> exact ⟨_, _, rfl⟩
  | @member _ _ _ _ before after => cases before <;> exact ⟨_, _, rfl⟩

/-- A further member of an object with one member stands before it, behind it, or in its value. -/
theorem Extended.of_singleton {name : String} {object : Json}
    (h : Extended m path (.object [(name, value)]) object) :
    (path = [] ∧ m.1 ≠ name ∧
        (object = .object [m, (name, value)] ∨ object = .object [(name, value), m])) ∨
      ∃ rest value', path = .member name :: rest ∧ Extended m rest value value' ∧
        object = .object [(name, value')] := by
  generalize hsingle : Json.object [(name, value)] = single at h
  cases h with
  | item => cases hsingle
  | @here before after hnew =>
    refine Or.inl ⟨rfl, ?_⟩
    rcases List.append_eq_singleton_iff.1 (Json.object.inj hsingle).symm with
      ⟨rfl, rfl⟩ | ⟨rfl, rfl⟩
    · exact ⟨fun h => hnew _ List.mem_cons_self h.symm, Or.inl rfl⟩
    · exact ⟨fun h => hnew _ List.mem_cons_self h.symm, Or.inr rfl⟩
  | @member rest _ _ value' before after h =>
    rcases List.append_eq_singleton_iff.1 (Json.object.inj hsingle).symm with
      ⟨rfl, hcons⟩ | ⟨-, hcons⟩
    · cases hcons
      exact Or.inr ⟨rest, value', rfl, h, rfl⟩
    · cases hcons

namespace Reader

variable {α β σ : Type} {closed : String → Bool} {start : Bool} {a : α}

/-! ### Records that allow other members -/

/-- The record with a member of the given name that is passed over. -/
def Shape.ignoring (shape : Shape σ α) (name : String) : Shape σ α :=
  { shape with
    members := shape.members ++
      [⟨name, fun _ => false, fun draft => do skipValue; return draft⟩] }

theorem find?_ignoring {shape : Shape σ α} {name name' : String}
    (hfind : shape.members.find? (·.name = name') = none) :
    (shape.ignoring name).members.find? (·.name = name') =
      if name = name' then some ⟨name, fun _ => false, fun draft => do skipValue; return draft⟩
      else none := by
  rw [Shape.ignoring, List.find?_append, hfind, Option.none_or, List.find?_singleton]
  simp

theorem members_ignoring {shape : Shape σ α} (hopen : shape.closed = false) (name : String)
    (fuel : Nat) (first : Bool) (draft : σ) :
    members (shape.ignoring name) fuel first draft = members shape fuel first draft := by
  induction fuel generalizing first draft with
  | zero => rfl
  | succ fuel ih =>
    rw [members, members]
    refine congrArg _ (funext fun more => ?_)
    cases more with
    | false => rfl
    | true =>
      rw [if_pos rfl, if_pos rfl]
      refine congrArg _ (funext fun name' => ?_)
      cases hfind : shape.members.find? (·.name = name') with
      | some m =>
        have hsome : (shape.ignoring name).members.find? (·.name = name') = some m := by
          rw [Shape.ignoring, List.find?_append, hfind]
          rfl
        simp only [hsome, ih]
      | none =>
        rw [find?_ignoring hfind]
        by_cases hname : name = name'
        · simp only [if_pos hname, hopen, ih, bind_assoc, pure_bind]
          rfl
        · have hopen' : (shape.ignoring name).closed = false := hopen
          simp only [if_neg hname, hopen, hopen', ih, Bool.false_eq_true, if_false]

theorem Fills.ignoring {shape : Shape σ α} {draft last : σ} {ms : List (String × Json)}
    (h : Fills shape draft ms last) (name : String) :
    Fills (shape.ignoring name) draft ms last := by
  induction h with
  | nil draft => exact .nil draft
  | cons hfind hnew hread _ ih =>
    refine .cons ?_ hnew hread ih
    rw [Shape.ignoring, List.find?_append, hfind]
    rfl

/-- A member of the name that is passed over leaves the draft as it is. -/
theorem Fills.skip {shape : Shape σ α} {draft last : σ} {ms : List (String × Json)}
    (hfind : shape.members.find? (·.name = m.1) = none)
    (h : Fills (shape.ignoring m.1) draft ms last) :
    Fills (shape.ignoring m.1) draft (m :: ms) last := by
  refine .cons (m := ⟨m.1, fun _ => false, fun draft => do skipValue; return draft⟩) ?_ rfl ?_ h
  · rw [find?_ignoring hfind, if_pos rfl]
  · intro spacing blanks rest hblanks hstop
    exact bind_apply (skipValue_written hblanks hstop spacing m.2)

theorem recordOf_object {title : String} {shape : Shape σ α} {blanks : List UInt8}
    (hblanks : ∀ b ∈ blanks, isBlank b) (bs : List UInt8) :
    recordOf title shape (blanks ++ byte '\x7b' :: bs) =
      (members shape (bs.length + 1) true shape.start >>= fun last =>
        ofExcept (shape.finish last)) bs := by
  rw [recordOf, bind_apply (next_apply hblanks rfl)]
  rfl

/-- An object is read alike whether a member is passed over by its name or as an unknown one. -/
theorem readsJson_of_ignoring {title : String} {shape : Shape σ α}
    (hopen : shape.closed = false) (name : String) {ms : List (String × Json)}
    (h : ReadsJson (recordOf title (shape.ignoring name)) (.object ms) a) :
    ReadsJson (recordOf title shape) (.object ms) a := by
  intro spacing blanks rest hblanks hstop
  have hread := h spacing blanks rest hblanks hstop
  obtain ⟨bs, hbs⟩ := exists_cons_written_object spacing ms
  rw [hbs, List.cons_append, recordOf_object hblanks] at hread ⊢
  rw [members_ignoring hopen] at hread
  exact hread

/-! ### Overlooking further members -/

/-- The reader reads the value, and reads the same where a further member stands in an object that
allows other members; where the object is closed, it fails. -/
structure Overlooks (closed : String → Bool) (start : Bool) (r : Reader α) (value : Json) (a : α) :
    Prop where
  reads : ReadsJson r value a
  overlooks : ∀ {m path value'}, Extended m path value value' →
    closedAt closed start path = false → ReadsJson r value' a
  refuses : ∀ {m path value'}, Extended m path value value' →
    closedAt closed start path = true → ∃ e, RefusesJson r value' e

/-- There is nothing to extend in an atom. -/
theorem overlooks_atom {r : Reader α} (hatom : value.isAtom = true) (h : ReadsJson r value a) :
    Overlooks closed start r value a where
  reads := h
  overlooks hext := by simp [hext.isAtom_eq_false] at hatom
  refuses hext := by simp [hext.isAtom_eq_false] at hatom

/-- An object is no `null`. -/
theorem Overlooks.optional {reader : Reader α} {ms : List (String × Json)}
    (h : Overlooks closed start reader (.object (m :: ms)) a) :
    Overlooks closed start (optional reader) (.object (m :: ms)) (some a) where
  reads := readsJson_some Json.noConfusion h.reads
  overlooks hext hopen := by
    obtain ⟨first, later, rfl⟩ := hext.exists_object
    exact readsJson_some Json.noConfusion (h.overlooks hext hopen)
  refuses hext hclosed := by
    obtain ⟨first, later, rfl⟩ := hext.exists_object
    obtain ⟨e, he⟩ := h.refuses hext hclosed
    exact ⟨e, refusesJson_optional he⟩

theorem forall₂_append_left {R : Json → α → Prop} {xs ys : List Json} {as : List α}
    (h : List.Forall₂ R (xs ++ ys) as) :
    ∃ bs cs, as = bs ++ cs ∧ List.Forall₂ R xs bs ∧ List.Forall₂ R ys cs :=
  ⟨as.take xs.length, as.drop xs.length, (List.take_append_drop _ _).symm,
    (List.forall₂_take_append _ _ _ h.flip).flip, (List.forall₂_drop_append _ _ _ h.flip).flip⟩

/-- A list overlooks what its items do. -/
theorem overlooks_list {depth : Nat} {reader : Nat → Reader α} {values : List Json} {as : List α}
    (h : List.Forall₂ (Overlooks closed false (reader depth)) values as) :
    Overlooks closed start (list (depth + 1) reader) (.array values) as where
  reads := readsJson_list (h.imp fun _ _ hitem => hitem.reads)
  overlooks hext hopen := by
    cases hext with
    | item hext =>
      obtain ⟨bs, cs, rfl, hbefore, hafter⟩ := forall₂_append_left h
      cases hafter with
      | cons hitem hafter =>
        refine readsJson_list (List.rel_append (hbefore.imp fun _ _ h => h.reads) ?_)
        exact .cons (hitem.overlooks hext hopen) (hafter.imp fun _ _ h => h.reads)
  refuses hext hclosed := by
    cases hext with
    | item hext =>
      obtain ⟨bs, cs, rfl, hbefore, hafter⟩ := forall₂_append_left h
      cases hafter with
      | cons hitem hafter =>
        obtain ⟨e, he⟩ := hitem.refuses hext hclosed
        exact ⟨e, refusesJson_list (hbefore.imp fun _ _ h => h.reads) he _⟩

/-- The members of an object fill a draft, and overlook further members inside. -/
inductive Overfills (closed : String → Bool) (shape : Shape σ α) :
    σ → List (String × Json) → σ → Prop
  | nil (draft : σ) : Overfills closed shape draft [] draft
  | member {β : Type} {get : σ → Option β} {put : Option β → σ → σ} {reader : Reader β}
    {draft last : σ} {name : String} {value : Json} {b : β} {ms : List (String × Json)}
    (hfind : shape.members.find? (·.name = name) = some (member name get put reader))
    (hnew : get draft = none) (hvalue : Overlooks closed (closed name) reader value b)
    (hrest : Overfills closed shape (put (some b) draft) ms last) :
    Overfills closed shape draft ((name, value) :: ms) last

variable {shape : Shape σ α} {draft last : σ} {ms : List (String × Json)}

theorem Overfills.fills (h : Overfills closed shape draft ms last) : Fills shape draft ms last := by
  induction h with
  | nil draft => exact .nil draft
  | member hfind hnew hvalue _ ih => exact .member hfind hnew hvalue.reads ih

theorem Overfills.split {before after : List (String × Json)}
    (h : Overfills closed shape draft (before ++ after) last) :
    ∃ mid, Overfills closed shape draft before mid ∧ Overfills closed shape mid after last := by
  induction before generalizing draft with
  | nil => exact ⟨draft, .nil draft, h⟩
  | cons m before ih =>
    cases h with
    | member hfind hnew hvalue hrest =>
      obtain ⟨mid, hbefore, hafter⟩ := ih hrest
      exact ⟨mid, .member hfind hnew hvalue hbefore, hafter⟩

/-- A record whose object has all its members overlooks others, unless it is closed. -/
theorem overlooks_recordOf {title : String}
    (h : ∃ last, Overfills closed shape shape.start ms last ∧ shape.finish last = .ok a)
    (hnames : shape.members.map (·.name) = ms.map (·.1)) (hstart : shape.closed = start) :
    Overlooks closed start (recordOf title shape) (.object ms) a := by
  subst hstart
  obtain ⟨last, hfills, hfinish⟩ := h
  have hunknown : ∀ {m : String × Json}, (∀ m' ∈ ms, m'.1 ≠ m.1) →
      shape.members.find? (·.name = m.1) = none := by
    intro m hnew
    refine List.find?_eq_none.2 fun known hknown => ?_
    have hmem : known.name ∈ ms.map (·.1) := hnames ▸ List.mem_map_of_mem hknown
    obtain ⟨m', hm', hname⟩ := List.mem_map.1 hmem
    simpa [← hname] using hnew m' hm'
  refine ⟨readsJson_recordOf ⟨last, hfills.fills, hfinish⟩, fun {m _ _} hext hopen => ?_,
    fun hext hclosed => ?_⟩
  · cases hext with
    | here hnew =>
      obtain ⟨mid, hbefore, hafter⟩ := hfills.split
      refine readsJson_of_ignoring hopen m.1 (readsJson_recordOf ⟨last, ?_, hfinish⟩)
      exact (hbefore.fills.ignoring _).append (.skip (hunknown hnew) (hafter.fills.ignoring _))
    | member hext =>
      obtain ⟨mid, hbefore, hafter⟩ := hfills.split
      cases hafter with
      | member hfind hnew hvalue hrest =>
        refine readsJson_recordOf ⟨last, hbefore.fills.append ?_, hfinish⟩
        exact .member hfind hnew (hvalue.overlooks hext hopen) hrest.fills
  · cases hext with
    | here hnew =>
      obtain ⟨mid, hbefore, -⟩ := hfills.split
      exact ⟨_, refusesJson_of_member hbefore.fills
        (refusesMember_of_closed hclosed (hunknown hnew)) _⟩
    | member hext =>
      obtain ⟨mid, hbefore, hafter⟩ := hfills.split
      cases hafter with
      | member hfind hnew hvalue hrest =>
        obtain ⟨e, he⟩ := hvalue.refuses hext hclosed
        exact ⟨e, refusesJson_recordOf hbefore.fills hfind hnew he _⟩

theorem overlooks_record {depth : Nat} {title : String} {shape : Nat → Shape σ α}
    (h : ∃ last, Overfills closed (shape depth) (shape depth).start ms last ∧
      (shape depth).finish last = .ok a)
    (hnames : (shape depth).members.map (·.name) = ms.map (·.1))
    (hstart : (shape depth).closed = start) :
    Overlooks closed start (record (depth + 1) title shape) (.object ms) a :=
  overlooks_recordOf h hnames hstart

/-- The object of a variant has no other members, and its payload overlooks what it does. -/
theorem overlooks_payload {variants : List (Variant α)} {depth : Nat} {v : Variant α}
    (hfind : variants.find? (·.name = v.name) = some v)
    (hplain : ∀ v' ∈ variants, v'.name ≠ v.name → ∃ b, v' = unitVariant v'.name b)
    (h : Overlooks closed (closed v.name) (v.payload depth) value a) :
    Overlooks closed true (variant (depth + 1) variants) (.object [(v.name, value)]) a := by
  refine ⟨readsJson_payload hfind h.reads, fun hext hopen => ?_, fun {m _ _} hext hclosed => ?_⟩
  · rcases hext.of_singleton with ⟨rfl, -⟩ | ⟨rest, value', rfl, hpayload, rfl⟩
    · cases hopen
    · exact readsJson_payload hfind (h.overlooks hpayload hopen)
  · rcases hext.of_singleton with ⟨rfl, hname, rfl | rfl⟩ | ⟨rest, value', rfl, hpayload, rfl⟩
    · refine exists_refusesJson_variant _ fun v' hfind' => ?_
      have hname' : v'.name = m.1 := by simpa using List.find?_some hfind'
      obtain ⟨b, hunit⟩ := hplain v' (List.mem_of_find?_eq_some hfind') (hname' ▸ hname)
      rw [hunit]
      exact (unitVariant_payload _ b depth m.2).imp_left fun hread => ⟨b, hread⟩
    · refine exists_refusesJson_variant _ fun v' hfind' => ?_
      obtain rfl : v = v' := Option.some.inj (hfind.symm.trans hfind')
      exact Or.inl ⟨a, h.reads⟩
    · obtain ⟨e, he⟩ := h.refuses hpayload hclosed
      exact ⟨e, refusesJson_payload hfind he⟩

end Reader

end Collate.Json
