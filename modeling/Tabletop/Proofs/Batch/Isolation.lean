import Mathlib.Data.List.Basic
import Tabletop.Batch

/-!
# Batches Are Rolled One by One

A batch is no more than its requests made **one after another**, each on the source that the
one before has left. A request that fails fails by itself: it draws no face, so the others show
what they would show without it.

All of this holds for every way of drawing faces, and nothing is assumed about the saved rolls.

## Main definitions

* `OneByOne`: what comes of requests that are made one after another.
* `WithoutFailures`: the items that are left when some of those that failed are taken away.

## Main results

* `rollBatchWith_cons_eq_ok_iff`: the first request, then the others.
* `rollBatchWith_eq_ok_iff`: a batch is its requests, one by one.
* `RollRequest.rollWith_of_failed`: a failing request draws nothing.
* `rollBatchWith_isolated`: the items of a batch do not disturb each other.
-/

namespace Tabletop

variable {ε σ : Type} {draw : Draw ε σ} {rolls : SavedRolls}

/-- `OneByOne draw rolls s requests outcomes s'`: made **one after another** from the state `s` on,
a formula by itself and a name by itself, the requests come to these outcomes and leave `s'`.
Nothing is rolled for an invalid request, whose value is kept as compact text. -/
inductive OneByOne (draw : Draw ε σ) (rolls : SavedRolls) :
    σ → List RollRequest → List (Except RollFailure Roll) → σ → Prop
  | done {s : σ} : OneByOne draw rolls s [] [] s
  | adhoc {s m s' : σ} {text : String} {outcome : Except Fault Roll}
      {requests : List RollRequest} {outcomes : List (Except RollFailure Roll)} :
      rollText draw text s = (.ok outcome, m) → OneByOne draw rolls m requests outcomes s' →
      OneByOne draw rolls s (.adhoc text :: requests) (outcome.mapError .formula :: outcomes) s'
  | named {s m s' : σ} {name : String} {outcome : Except SavedRollError Roll}
      {requests : List RollRequest} {outcomes : List (Except RollFailure Roll)} :
      rollSaved draw rolls name s = (.ok outcome, m) →
      OneByOne draw rolls m requests outcomes s' →
      OneByOne draw rolls s (.named name :: requests) (outcome.mapError .savedRoll :: outcomes) s'
  | invalid {s s' : σ} {value : Json} {requests : List RollRequest}
      {outcomes : List (Except RollFailure Roll)} :
      OneByOne draw rolls s requests outcomes s' →
      OneByOne draw rolls s (.invalid value :: requests)
        (.error (.invalidRequest value.compact) :: outcomes) s'

/-- `WithoutFailures items kept`: of the items, those are kept that are left when **any** of the
failed ones are taken away. -/
inductive WithoutFailures : List BatchItem → List BatchItem → Prop
  | nil : WithoutFailures [] []
  | keep {item : BatchItem} {items kept : List BatchItem} :
      WithoutFailures items kept → WithoutFailures (item :: items) (item :: kept)
  | drop {request : RollRequest} {failure : RollFailure} {items kept : List BatchItem} :
      WithoutFailures items kept → WithoutFailures (⟨request, .error failure⟩ :: items) kept

/-! ### One request -/

/-- A roll of a formula, if there is one, fails **without a draw**, or is that of the formula. -/
theorem rollIfGood_eq_ok {φ : Type} {formula : Except φ Formula} {s m : σ}
    {outcome : Except φ Roll} (h : rollIfGood draw formula s = (.ok outcome, m)) :
    (∃ failure, formula = .error failure ∧ outcome = .error failure ∧ m = s) ∨
      ∃ f roll, formula = .ok f ∧ outcome = .ok roll ∧ f.rollWith draw s = (.ok roll, m) := by
  cases formula with
  | error failure =>
      cases h
      exact .inl ⟨failure, rfl, rfl, rfl⟩
  | ok f =>
      obtain ⟨roll, _, hroll, h⟩ := Drawn.andThen_eq_ok_iff.mp h
      cases h
      exact .inr ⟨f, roll, rfl, rfl, hroll⟩

/-- How failures are told makes no difference to what is rolled. -/
theorem rollIfGood_mapError {φ ψ : Type} (g : φ → ψ) (formula : Except φ Formula) (s : σ) :
    rollIfGood draw (formula.mapError g) s =
      (rollIfGood draw formula s).andThen fun outcome s => (.ok (outcome.mapError g), s) := by
  cases formula with
  | error failure => rfl
  | ok f =>
      change rollIfGood draw (.ok f) s = _
      simp only [rollIfGood]
      rcases f.rollWith draw s with ⟨refusal | roll, m⟩ <;> rfl

/-- A request comes to its end when **its formula** does, and its item echoes it. -/
theorem RollRequest.rollWith_eq_ok_iff {request : RollRequest} {s m : σ} {item : BatchItem} :
    request.rollWith draw rolls s = (.ok item, m) ↔
      item.request = request ∧
        rollIfGood draw (request.formula rolls) s = (.ok item.outcome, m) := by
  rw [RollRequest.rollWith, Drawn.andThen_eq_ok_iff]
  constructor
  · rintro ⟨outcome, _, hroll, h⟩
    cases h
    exact ⟨rfl, hroll⟩
  · rintro ⟨rfl, hroll⟩
    exact ⟨item.outcome, m, hroll, rfl⟩

/-- A request that fails **draws nothing**: it leaves the state as it was, and fails in the same
way whatever faces are drawn from. -/
theorem RollRequest.rollWith_of_failed {request : RollRequest} {failure : RollFailure} {s m : σ}
    (h : request.rollWith draw rolls s = (.ok ⟨request, .error failure⟩, m)) :
    m = s ∧ ∀ {δ τ : Type} (draw' : Draw δ τ) (u : τ),
      request.rollWith draw' rolls u = (.ok ⟨request, .error failure⟩, u) := by
  obtain ⟨-, hroll⟩ := rollWith_eq_ok_iff.mp h
  rcases rollIfGood_eq_ok hroll with ⟨failure', hformula, houtcome, hm⟩ | ⟨_, _, -, houtcome, -⟩
  · cases houtcome
    refine ⟨hm, fun draw' u => rollWith_eq_ok_iff.mpr ⟨rfl, ?_⟩⟩
    rw [hformula]
    rfl
  · cases houtcome

/-! ### Whole batches -/

/-- A batch comes to its end when **its first request does, and the others from what that
leaves**. -/
theorem rollBatchWith_cons_eq_ok_iff {request : RollRequest} {requests : List RollRequest}
    {s s' : σ} {items : List BatchItem} :
    rollBatchWith draw rolls (request :: requests) s = (.ok items, s') ↔
      ∃ item m rest, request.rollWith draw rolls s = (.ok item, m) ∧
        rollBatchWith draw rolls requests m = (.ok rest, s') ∧ items = item :: rest := by
  simp only [rollBatchWith, Drawn.andThen_eq_ok_iff]
  constructor
  · rintro ⟨item, m, hitem, rest, _, hrest, h⟩
    cases h
    exact ⟨item, m, rest, hitem, hrest, rfl⟩
  · rintro ⟨item, m, rest, hitem, hrest, rfl⟩
    exact ⟨item, m, hitem, rest, s', hrest, rfl⟩

/-- Requests come to an end one by one when **the first does, and the others from what that
leaves**. -/
theorem oneByOne_cons_iff {request : RollRequest} {requests : List RollRequest} {s s' : σ}
    {outcomes : List (Except RollFailure Roll)} :
    OneByOne draw rolls s (request :: requests) outcomes s' ↔
      ∃ outcome m rest, rollIfGood draw (request.formula rolls) s = (.ok outcome, m) ∧
        OneByOne draw rolls m requests rest s' ∧ outcomes = outcome :: rest := by
  constructor
  · intro h
    cases h with
    | adhoc htold hrest =>
        refine ⟨_, _, _, ?_, hrest, rfl⟩
        rw [RollRequest.formula, rollIfGood_mapError, ← rollText, htold]
        rfl
    | named htold hrest =>
        refine ⟨_, _, _, ?_, hrest, rfl⟩
        rw [RollRequest.formula, rollIfGood_mapError, ← rollSaved, htold]
        rfl
    | invalid hrest => exact ⟨_, _, _, rfl, hrest, rfl⟩
  · rintro ⟨outcome, m, rest, h, hrest, rfl⟩
    cases request with
    | adhoc text =>
        rw [RollRequest.formula, rollIfGood_mapError, Drawn.andThen_eq_ok_iff] at h
        obtain ⟨told, _, htold, h⟩ := h
        cases h
        exact .adhoc htold hrest
    | named name =>
        rw [RollRequest.formula, rollIfGood_mapError, Drawn.andThen_eq_ok_iff] at h
        obtain ⟨told, _, htold, h⟩ := h
        cases h
        exact .named htold hrest
    | invalid value =>
        cases h
        exact .invalid hrest

/-- **A batch is its requests, one by one**: it comes to its end when they do, each item echoes
its request and has its outcome, and the same state is left. -/
theorem rollBatchWith_eq_ok_iff {requests : List RollRequest} {s s' : σ}
    {items : List BatchItem} :
    rollBatchWith draw rolls requests s = (.ok items, s') ↔
      items.map BatchItem.request = requests ∧
        OneByOne draw rolls s requests (items.map BatchItem.outcome) s' := by
  induction requests generalizing s items with
  | nil =>
      constructor
      · intro h
        cases h
        exact ⟨rfl, .done⟩
      · rintro ⟨hrequests, hone⟩
        obtain rfl := List.map_eq_nil_iff.mp hrequests
        cases hone
        rfl
  | cons request requests ih =>
      rw [rollBatchWith_cons_eq_ok_iff, oneByOne_cons_iff]
      constructor
      · rintro ⟨item, m, rest, hitem, hrest, rfl⟩
        obtain ⟨rfl, houtcome⟩ := RollRequest.rollWith_eq_ok_iff.mp hitem
        obtain ⟨rfl, houtcomes⟩ := ih.mp hrest
        exact ⟨rfl, _, _, _, houtcome, houtcomes, rfl⟩
      · rintro ⟨hrequests, outcome, m, outcomes, houtcome, houtcomes, hall⟩
        obtain ⟨item, rest, rfl, rfl, rfl⟩ := List.map_eq_cons_iff.mp hrequests
        obtain ⟨rfl, rfl⟩ := List.cons.inj hall
        exact ⟨item, m, rest, RollRequest.rollWith_eq_ok_iff.mpr ⟨rfl, houtcome⟩,
          ih.mpr ⟨rfl, houtcomes⟩, rfl⟩

/-- An item of a batch that failed comes from a request that **draws nothing**. -/
theorem rollWith_of_mem_failed {requests : List RollRequest} {s s' : σ} {items : List BatchItem}
    (h : rollBatchWith draw rolls requests s = (.ok items, s')) {request : RollRequest}
    {failure : RollFailure} (hmem : ⟨request, .error failure⟩ ∈ items) {δ τ : Type}
    (draw' : Draw δ τ) (u : τ) :
    request.rollWith draw' rolls u = (.ok ⟨request, .error failure⟩, u) := by
  induction requests generalizing s items with
  | nil =>
      cases h
      cases hmem
  | cons first requests ih =>
      obtain ⟨item, m, rest, hitem, hrest, rfl⟩ := rollBatchWith_cons_eq_ok_iff.mp h
      rcases List.mem_cons.mp hmem with rfl | hmem
      · obtain ⟨rfl, -⟩ := RollRequest.rollWith_eq_ok_iff.mp hitem
        exact (RollRequest.rollWith_of_failed hitem).2 draw' u
      · exact ih hrest hmem

/-- An item of a batch that failed comes from a request **without a formula**. -/
theorem formula_of_mem_failed {requests : List RollRequest} {s s' : σ} {items : List BatchItem}
    (h : rollBatchWith draw rolls requests s = (.ok items, s')) {request : RollRequest}
    {failure : RollFailure} (hmem : ⟨request, .error failure⟩ ∈ items) :
    request.formula rolls = .error failure := by
  have hfailed := RollRequest.rollWith_eq_ok_iff.mp (rollWith_of_mem_failed h hmem draw s)
  rcases rollIfGood_eq_ok hfailed.2 with ⟨failure', hformula, houtcome, -⟩ | ⟨_, _, -, houtcome, -⟩
  · cases houtcome
    exact hformula
  · cases houtcome

/-- **Failed requests can be taken away**: what is left of a batch without some of them comes to
the same items, and leaves the same state. -/
theorem WithoutFailures.roll_eq {items kept : List BatchItem}
    (h : WithoutFailures items kept) {s s' : σ}
    (hroll : rollBatchWith draw rolls (items.map BatchItem.request) s = (.ok items, s')) :
    rollBatchWith draw rolls (kept.map BatchItem.request) s = (.ok kept, s') := by
  induction h generalizing s with
  | nil => exact hroll
  | keep _ ih =>
      obtain ⟨item, m, rest, hitem, hrest, hcons⟩ := rollBatchWith_cons_eq_ok_iff.mp hroll
      obtain ⟨rfl, rfl⟩ := List.cons.inj hcons
      exact rollBatchWith_cons_eq_ok_iff.mpr ⟨_, _, _, hitem, ih hrest, rfl⟩
  | drop _ ih =>
      obtain ⟨item, m, rest, hitem, hrest, hcons⟩ := rollBatchWith_cons_eq_ok_iff.mp hroll
      obtain ⟨rfl, rfl⟩ := List.cons.inj hcons
      obtain ⟨rfl, -⟩ := RollRequest.rollWith_of_failed hitem
      exact ih hrest

/-- **Two batches in a row** are the first, and then the second from what that leaves. -/
theorem rollBatchWith_append_eq_ok_iff {first second : List RollRequest} {s s' : σ}
    {items : List BatchItem} :
    rollBatchWith draw rolls (first ++ second) s = (.ok items, s') ↔
      ∃ front m back, rollBatchWith draw rolls first s = (.ok front, m) ∧
        rollBatchWith draw rolls second m = (.ok back, s') ∧ items = front ++ back := by
  induction first generalizing s items with
  | nil =>
      constructor
      · intro h
        exact ⟨[], s, items, rfl, h, rfl⟩
      · rintro ⟨front, m, back, hfront, hback, rfl⟩
        cases hfront
        exact hback
  | cons request requests ih =>
      rw [List.cons_append, rollBatchWith_cons_eq_ok_iff]
      constructor
      · rintro ⟨item, m, rest, hitem, hrest, rfl⟩
        obtain ⟨front, m', back, hfront, hback, rfl⟩ := ih.mp hrest
        exact ⟨item :: front, m', back,
          rollBatchWith_cons_eq_ok_iff.mpr ⟨item, m, front, hitem, hfront, rfl⟩, hback, rfl⟩
      · rintro ⟨front, m', back, hfront, hback, rfl⟩
        obtain ⟨item, m, rest, hitem, hrest, rfl⟩ := rollBatchWith_cons_eq_ok_iff.mp hfront
        exact ⟨item, m, rest ++ back, hitem, ih.mpr ⟨rest, m', back, hrest, hback, rfl⟩, rfl⟩

/-- **The items of a batch do not disturb each other.** A batch comes to its end just when its
requests do that are made one by one, with the same outcomes, each beside its request, and it
leaves the same state. Then a request that failed draws nothing, whatever is drawn from; without
any of the failed ones, the others come to the same and leave the same; and a batch in two parts
is the first part and then, from what that leaves, the second. -/
theorem rollBatchWith_isolated (draw : Draw ε σ) (rolls : SavedRolls)
    (requests : List RollRequest) (s s' : σ) (items : List BatchItem) :
    (rollBatchWith draw rolls requests s = (.ok items, s') ↔
      items.map BatchItem.request = requests ∧
        OneByOne draw rolls s requests (items.map BatchItem.outcome) s') ∧
    (rollBatchWith draw rolls requests s = (.ok items, s') →
      (∀ request failure, ⟨request, .error failure⟩ ∈ items →
        ∀ {δ τ : Type} (draw' : Draw δ τ) (u : τ),
          request.rollWith draw' rolls u = (.ok ⟨request, .error failure⟩, u)) ∧
      (∀ kept, WithoutFailures items kept →
        rollBatchWith draw rolls (kept.map BatchItem.request) s = (.ok kept, s')) ∧
      (∀ first second, requests = first ++ second →
        ∃ front m back, rollBatchWith draw rolls first s = (.ok front, m) ∧
          rollBatchWith draw rolls second m = (.ok back, s') ∧ items = front ++ back)) := by
  refine ⟨rollBatchWith_eq_ok_iff, fun h => ⟨?_, ?_, ?_⟩⟩
  · intro request failure hmem δ τ draw' u
    exact rollWith_of_mem_failed h hmem draw' u
  · intro kept hkept
    obtain ⟨rfl, -⟩ := rollBatchWith_eq_ok_iff.mp h
    exact hkept.roll_eq h
  · rintro first second rfl
    exact rollBatchWith_append_eq_ok_iff.mp h

/-- Of five requests, three fail in three ways. Without two of these the others show the same two
scripted faces, and again nothing is left of the script. -/
theorem rollBatch_isolated_mixed :
    ∃ bogus missing : BatchItem,
      rollBatch .empty
          [.adhoc "1d4", .adhoc "bogus", .named "missing", .invalid (.ofNat 5), .adhoc "1d6"]
          (.scripted [3, 6] .lowest) =
        (.ok [⟨.adhoc "1d4", .ok ⟨"1d4", [.dice .plus 1 4 [3]]⟩⟩, bogus, missing,
          ⟨.invalid (.ofNat 5), .error (.invalidRequest "5")⟩,
          ⟨.adhoc "1d6", .ok ⟨"1d6", [.dice .plus 1 6 [6]]⟩⟩], .scripted [] .lowest) ∧
      rollBatch .empty [.adhoc "1d4", .invalid (.ofNat 5), .adhoc "1d6"]
          (.scripted [3, 6] .lowest) =
        (.ok [⟨.adhoc "1d4", .ok ⟨"1d4", [.dice .plus 1 4 [3]]⟩⟩,
          ⟨.invalid (.ofNat 5), .error (.invalidRequest "5")⟩,
          ⟨.adhoc "1d6", .ok ⟨"1d6", [.dice .plus 1 6 [6]]⟩⟩], .scripted [] .lowest) := by
  have hfour : Formula.parse "1d4" = .ok ⟨"1d4", [⟨.plus, .dice 1 4⟩]⟩ := by decide +kernel
  have hbogus : Formula.parse "bogus" = .error ⟨.malformedTerm, 0, "bogus"⟩ := by decide +kernel
  have hsix : Formula.parse "1d6" = .ok ⟨"1d6", [⟨.plus, .dice 1 6⟩]⟩ := by decide +kernel
  have hroll : rollBatchWith Source.draw .empty
      [.adhoc "1d4", .adhoc "bogus", .named "missing", .invalid (.ofNat 5), .adhoc "1d6"]
      (.scripted [3, 6] .lowest) =
      (.ok [⟨.adhoc "1d4", .ok ⟨"1d4", [.dice .plus 1 4 [3]]⟩⟩,
        ⟨.adhoc "bogus", .error (.formula ⟨.malformedTerm, 0, "bogus"⟩)⟩,
        ⟨.named "missing", .error (.savedRoll (.notFound "missing"))⟩,
        ⟨.invalid (.ofNat 5), .error (.invalidRequest "5")⟩,
        ⟨.adhoc "1d6", .ok ⟨"1d6", [.dice .plus 1 6 [6]]⟩⟩], .scripted [] .lowest) := by
    simp only [rollBatchWith, RollRequest.rollWith, RollRequest.formula, hfour, hbogus, hsix]
    rfl
  obtain ⟨-, hkept, -⟩ := (rollBatchWith_isolated _ _ _ _ _ _).2 hroll
  exact ⟨_, _, hroll, hkept _ (.keep (.drop (.drop (.keep (.keep .nil)))))⟩

end Tabletop
