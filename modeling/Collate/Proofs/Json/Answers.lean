import Collate.Proofs.Answers
import Collate.Proofs.Json.Reading

/-!
# What readers answer

A reader ensures a property (`Json.Reader.Ensures`) if every answer has it, whatever text the answer
was read from.  There is a rule for each way in which readers are put together; a record ensures
what its finish makes of a property that every member keeps of the draft
(`Json.Reader.ensures_recordOf`), be the record written as an object or as a list.
-/

namespace Collate.Json.Reader

variable {α β σ : Type} {P : α → Prop} {Q : β → Prop}

/-- Every answer of the reader has the property. -/
def Ensures (r : Reader α) (P : α → Prop) : Prop := ∀ bs a rest, r bs = .ok (a, rest) → P a

theorem Ensures.run {r : Reader α} (h : Ensures r P) {bs : List UInt8} {a : α}
    (hrun : r.run bs = .ok a) : P a := by
  obtain ⟨⟨b, rest⟩, hread, hrest⟩ := bind_eq_ok_iff.1 hrun
  dsimp only at hrest
  split at hrest
  · cases hrest
    exact h _ _ _ hread
  · cases hrest

/-! ### Rules of sequence -/

theorem Ensures.bind {r : Reader α} {next : α → Reader β} (h : Ensures r P)
    (hnext : ∀ a, P a → Ensures (next a) Q) : Ensures (r >>= next) Q := by
  intro bs b rest hread
  change (r bs >>= fun p => next p.1 p.2) = _ at hread
  obtain ⟨⟨a, rest'⟩, hr, hb⟩ := bind_eq_ok_iff.1 hread
  exact hnext a (h _ _ _ hr) _ _ _ hb

theorem ensures_bind {r : Reader α} {next : α → Reader β} (hnext : ∀ a, Ensures (next a) Q) :
    Ensures (r >>= next) Q :=
  Ensures.bind (P := fun _ => True) (fun _ _ _ _ => trivial) fun a _ => hnext a

theorem ensures_pure {a : α} (h : P a) : Ensures (pure a) P := by
  intro bs b rest hread
  obtain ⟨rfl, -⟩ := Prod.mk.inj (Except.ok.inj hread)
  exact h

theorem ensures_fail {e : ReadError} : Ensures (fail e : Reader α) P :=
  fun _ _ _ hread => nomatch hread

theorem ensures_ofExcept {answer : Except ReadError α} (h : ∀ a, answer = .ok a → P a) :
    Ensures (ofExcept answer) P := by
  intro bs a rest hread
  cases answer with
  | error e => cases hread
  | ok b =>
    obtain ⟨rfl, -⟩ := Prod.mk.inj (Except.ok.inj hread)
    exact h _ rfl

/-- What is not expected has no answer. -/
theorem ensures_mismatch {expected : String} : Ensures (mismatch expected : Reader α) P := by
  refine ensures_bind fun c => ?_
  split
  · exact ensures_bind fun _ => ensures_fail
  · exact ensures_bind fun _ => ensures_fail
  · exact ensures_bind fun _ => ensures_fail
  · exact ensures_bind fun _ => ensures_fail
  · exact ensures_fail
  · exact ensures_fail
  · split
    · exact ensures_bind fun _ => ensures_fail
    · exact ensures_fail

/-! ### Atoms and lists -/

theorem ensures_integer (title : String) (low high : Int) :
    Ensures (integer title low high) fun n => low ≤ n ∧ n < high := by
  refine ensures_bind fun c => ?_
  split
  · refine ensures_bind fun n => ?_
    cases n with
    | integer n =>
      show Ensures (if low ≤ n ∧ n < high then _ else _) _
      split
      · next hn => exact ensures_pure hn
      · exact ensures_fail
    | float x => exact ensures_fail
  · exact ensures_mismatch

theorem ensures_natural (title : String) (bits : Nat) :
    Ensures (natural title bits) fun n => n < 2 ^ bits := by
  refine (ensures_integer title 0 (2 ^ bits)).bind fun n hn => ensures_pure ?_
  have hlt : (n.toNat : Int) < (2 ^ bits : Nat) := by
    rw [Int.toNat_of_nonneg hn.1]
    exact_mod_cast hn.2
  exact_mod_cast hlt

theorem ensures_size : Ensures size fun n => n < 2 ^ 64 := ensures_natural "usize" 64

theorem ensures_items {item : Reader α} (h : Ensures item P) (fuel : Nat) (first : Bool) :
    Ensures (items item fuel first) fun as => ∀ a ∈ as, P a := by
  induction fuel generalizing first with
  | zero => exact ensures_fail
  | succ fuel ih =>
    refine ensures_bind fun more => ?_
    split
    · refine h.bind fun a ha => (ih false).bind fun as has => ensures_pure ?_
      exact List.forall_mem_cons.2 ⟨ha, has⟩
    · exact ensures_bind fun _ => ensures_pure (List.forall_mem_nil _)

theorem ensures_list {item : Nat → Reader α} (h : ∀ depth, Ensures (item depth) P) (depth : Nat) :
    Ensures (list depth item) fun as => ∀ a ∈ as, P a := by
  refine ensures_bind fun c => ?_
  split
  · cases depth with
    | zero => exact ensures_fail
    | succ depth =>
      refine ensures_bind fun _ => ?_
      exact fun bs => ensures_items (h depth) _ true bs
  · exact ensures_mismatch

theorem ensures_optional {r : Reader α} (h : Ensures r P) :
    Ensures (optional r) fun o => ∀ a ∈ o, P a := by
  refine ensures_bind fun _ => ensures_bind fun c => ?_
  split
  · exact ensures_bind fun _ => ensures_pure (by simp)
  · exact h.bind fun a ha => ensures_pure (by simpa using ha)

/-! ### Records -/

/-- A member keeps a property of drafts. -/
def KeptBy (I : σ → Prop) (m : Member σ) : Prop := ∀ draft, I draft → Ensures (m.read draft) I

theorem keptBy_member {I : σ → Prop} {name : String} {get : σ → Option α} {put : Option α → σ → σ}
    {reader : Reader α} (h : Ensures reader P)
    (hput : ∀ draft a, I draft → P a → I (put (some a) draft)) :
    KeptBy I (member name get put reader) :=
  fun draft hdraft => h.bind fun a ha => ensures_pure (hput draft a hdraft ha)

/-- A member that the property does not speak of. -/
theorem keptBy_other {I : σ → Prop} {name : String} {get : σ → Option α} {put : Option α → σ → σ}
    {reader : Reader α} (hput : ∀ draft a, I draft → I (put (some a) draft)) :
    KeptBy I (member name get put reader) :=
  fun draft hdraft => ensures_bind fun a => ensures_pure (hput draft a hdraft)

theorem ensures_members {I : σ → Prop} {shape : Shape σ α} (h : ∀ m ∈ shape.members, KeptBy I m)
    (fuel : Nat) (first : Bool) {draft : σ} (hdraft : I draft) :
    Ensures (members shape fuel first draft) I := by
  induction fuel generalizing first draft with
  | zero => exact ensures_fail
  | succ fuel ih =>
    refine ensures_bind fun more => ?_
    split
    · refine ensures_bind fun name => ?_
      split
      · next m hfind =>
        split
        · exact ensures_fail
        · refine ensures_bind fun _ => (h m (List.mem_of_find?_eq_some hfind) draft hdraft).bind ?_
          exact fun draft' hdraft' => ih false hdraft'
      · split
        · exact ensures_fail
        · exact ensures_bind fun _ => ensures_bind fun _ => ih false hdraft
    · exact ensures_bind fun _ => ensures_pure hdraft

theorem ensures_values {I : σ → Prop} {ms : List (Member σ)} (h : ∀ m ∈ ms, KeptBy I m)
    (title : String) (count index : Nat) {draft : σ} (hdraft : I draft) :
    Ensures (values title count index ms draft) I := by
  induction ms generalizing index draft with
  | nil => exact ensures_bind fun _ => ensures_pure hdraft
  | cons m ms ih =>
    rw [List.forall_mem_cons] at h
    refine ensures_bind fun more => ?_
    split
    · exact (h.1 draft hdraft).bind fun draft' hdraft' => ih h.2 (index + 1) hdraft'
    · exact ensures_fail

/-- A record that is finished from a draft with a property that its members keep. -/
theorem ensures_recordOf {I : σ → Prop} {title : String} {shape : Shape σ α}
    (hstart : I shape.start) (hmembers : ∀ m ∈ shape.members, KeptBy I m)
    (hfinish : ∀ draft a, I draft → shape.finish draft = .ok a → P a) :
    Ensures (recordOf title shape) P := by
  have hdone : ∀ draft, I draft → Ensures (ofExcept (shape.finish draft)) P :=
    fun draft hdraft => ensures_ofExcept fun a ha => hfinish draft a hdraft ha
  refine ensures_bind fun c => ?_
  split
  · exact ensures_bind fun _ => (ensures_values hmembers title _ 0 hstart).bind hdone
  · refine ensures_bind fun _ => Ensures.bind (P := I) ?_ hdone
    exact fun bs => ensures_members hmembers _ true hstart bs
  · exact ensures_mismatch

theorem ensures_noRecord {title : String} : Ensures (noRecord title : Reader α) P := by
  refine ensures_bind fun c => ?_
  split
  · exact ensures_fail
  · exact ensures_fail
  · exact ensures_mismatch

theorem ensures_record {title : String} {shape : Nat → Shape σ α} {depth : Nat}
    (h : ∀ inner, depth = inner + 1 → Ensures (recordOf title (shape inner)) P) :
    Ensures (record depth title shape) P := by
  cases depth with
  | zero => exact ensures_noRecord
  | succ inner => exact h inner rfl

theorem required_eq_ok_iff {name : String} {o : Option α} {a : α} :
    required name o = .ok a ↔ o = some a := by
  cases o <;> simp [required]

end Collate.Json.Reader
