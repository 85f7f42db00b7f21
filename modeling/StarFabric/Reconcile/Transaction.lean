import StarFabric.Reconcile.World
import StarFabric.Lib.Fold

/-!
# The route transaction, stage by stage

What each stage of `apply` does to the ledgers of the devices, as triples with a crash condition.
`Touched` is where a device may stand once its `Prepare` succeeded, `Undone` where it stands after
its rollback, and `Traced` is what is true at every single call. A stage that fails reports exactly
the devices that are `Touched`.
-/

namespace StarFabric

namespace Reconcile

open Go EffectProgram Adapter List
open Function (update_self update_of_ne)

/-! ### One device -/

def Idle (l : Ledger) : Prop := l.prepared = fun _ => none

/-- Where a device that started at `l₀` may stand after its `Prepare` succeeded. -/
inductive Touched (p : RoutePlan) (l₀ : Ledger) : Ledger → Prop where
  | running : l₀.appliedPlanID = p.id → Touched p l₀ l₀
  | staged : l₀.appliedPlanID ≠ p.id → Touched p l₀ (l₀.stage p)
  | committed : l₀.appliedPlanID ≠ p.id →
      Touched p l₀ ((l₀.stage p).install p.id ⟨p, l₀.routes, l₀.appliedPlanID⟩)

def Undone (p : RoutePlan) (l₀ l : Ledger) : Prop :=
  ∃ m, Touched p l₀ m ∧ l = m.rollback p.id

variable {p : RoutePlan} {l₀ l : Ledger}

theorem Touched.install (h : Touched p l₀ l) {tx : Transaction}
    (htx : l.prepared p.id = some tx) (hne : p.id ≠ l.appliedPlanID) :
    Touched p l₀ (l.install p.id tx) := by
  cases h with
  | running happ => exact absurd happ.symm hne
  | staged happ =>
    -- the transaction is the one that was just staged
    change Function.update _ _ _ _ = _ at htx
    rw [update_self] at htx
    cases htx
    exact .committed happ
  | committed _ => exact absurd rfl hne

theorem rollback_stage (hidle : Idle l₀) : (l₀.stage p).rollback p.id = l₀ := by
  have hnone : l₀.prepared p.id = none := congrFun hidle p.id
  unfold Ledger.rollback Ledger.stage
  simp only [update_self]
  -- staging wrote only the entry that the rollback takes out again
  rw [ExceptFold.update_restore hnone]

theorem rollback_install (hidle : Idle l₀) :
    ((l₀.stage p).install p.id ⟨p, l₀.routes, l₀.appliedPlanID⟩).rollback p.id =
      { l₀ with history := Function.update l₀.history p.id none } := by
  have hnone : l₀.prepared p.id = none := congrFun hidle p.id
  unfold Ledger.rollback Ledger.install Ledger.stage
  simp only [update_self, Function.update_idem, if_true]
  rw [← hnone, Function.update_eq_self]

/-- **What a rollback leaves.** A device that did not run the plan before is back at
its routes and plan id; one that did has been rolled back past the transaction, to what
its history records for the plan. -/
theorem Undone.cases (hidle : Idle l₀) (h : Undone p l₀ l) :
    (l₀.appliedPlanID ≠ p.id ∧ l.routes = l₀.routes ∧ l.appliedPlanID = l₀.appliedPlanID ∧
        l.prepared = l₀.prepared ∧
        (l.history = l₀.history ∨ l.history = Function.update l₀.history p.id none)) ∨
      (l₀.appliedPlanID = p.id ∧ l = l₀.rollback p.id) := by
  obtain ⟨m, hm, rfl⟩ := h
  cases hm with
  -- nothing was staged, and the rollback finds an older transaction in the history
  | running happ => exact .inr ⟨happ, rfl⟩
  | staged happ => rw [rollback_stage hidle]; exact .inl ⟨happ, rfl, rfl, rfl, .inl rfl⟩
  | committed happ => rw [rollback_install hidle]; exact .inl ⟨happ, rfl, rfl, rfl, .inr rfl⟩

/-! ### All devices -/

abbrev Ledgers := String → Option Ledger

/-- The devices in `names` are touched, the others are as before. -/
structure Holding (plan : RoutePlan) (before now : Ledgers) (names : List String) : Prop where
  touched : ∀ n ∈ names, ∃ l₀ l, before n = some l₀ ∧ now n = some l ∧
    Touched (plan.forDevice n) l₀ l
  untouched : ∀ n ∉ names, now n = before n

/-- The devices in `names` are touched, those in `back` of them are rolled back, and
the others are as before. -/
structure Undoing (plan : RoutePlan) (before now : Ledgers) (names back : List String) : Prop where
  undone : ∀ n ∈ back, ∃ l₀ l, before n = some l₀ ∧ now n = some l ∧ Undone (plan.forDevice n) l₀ l
  touched : ∀ n ∈ names, n ∉ back → ∃ l₀ l, before n = some l₀ ∧ now n = some l ∧
    Touched (plan.forDevice n) l₀ l
  untouched : ∀ n ∉ names, now n = before n

/-- All of the devices in `names` are rolled back, the others are as before. -/
structure RolledBack (plan : RoutePlan) (before now : Ledgers) (names : List String) : Prop where
  undone : ∀ n ∈ names, ∃ l₀ l, before n = some l₀ ∧ now n = some l ∧ Undone (plan.forDevice n) l₀ l
  untouched : ∀ n ∉ names, now n = before n

def Traced (plan : RoutePlan) (before now : Ledgers) : Prop :=
  ∀ n l, now n = some l → ∃ l₀, before n = some l₀ ∧
    (l = l₀ ∨ Touched (plan.forDevice n) l₀ l ∨ Undone (plan.forDevice n) l₀ l)

variable {plan : RoutePlan} {before now : Ledgers} {names back : List String}

theorem Holding.nil (plan : RoutePlan) (before : Ledgers) : Holding plan before before [] :=
  ⟨nofun, fun _ _ => rfl⟩

theorem Undoing.traced (h : Undoing plan before now names back) : Traced plan before now := by
  intro n l hl
  by_cases hundone : n ∈ back
  · obtain ⟨l₀, l', h₀, hl', hn⟩ := h.undone n hundone
    cases hl.symm.trans hl'
    exact ⟨l₀, h₀, .inr (.inr hn)⟩
  · by_cases hn : n ∈ names
    · obtain ⟨l₀, l', h₀, hl', ht⟩ := h.touched n hn hundone
      cases hl.symm.trans hl'
      exact ⟨l₀, h₀, .inr (.inl ht)⟩
    · exact ⟨l, (h.untouched n hn).symm.trans hl, .inl rfl⟩

theorem Holding.undoing (h : Holding plan before now names) : Undoing plan before now names [] :=
  ⟨nofun, fun n hn _ => h.touched n hn, h.untouched⟩

theorem Holding.traced (h : Holding plan before now names) : Traced plan before now :=
  h.undoing.traced

variable {n : String}

theorem Holding.update (h : Holding plan before now names) (hn : n ∈ names)
    (h₀ : before n = some l₀) (hl : Touched (plan.forDevice n) l₀ l) :
    Holding plan before (Function.update now n (some l)) names := by
  refine ⟨fun m hm => ?_, fun m hm => ?_⟩
  · by_cases hmn : m = n
    · subst hmn
      exact ⟨l₀, l, h₀, update_self _ _ _, hl⟩
    · rw [update_of_ne hmn]
      exact h.touched m hm
  · rw [update_of_ne (fun hmn : m = n => hm (hmn ▸ hn))]
    exact h.untouched m hm

theorem Holding.touch (h : Holding plan before now names) (h₀ : before n = some l₀)
    (hl : Touched (plan.forDevice n) l₀ l) :
    Holding plan before (Function.update now n (some l)) (names ++ [n]) := by
  refine ⟨fun m hm => ?_, fun m hm => ?_⟩
  · by_cases hmn : m = n
    · subst hmn
      exact ⟨l₀, l, h₀, update_self _ _ _, hl⟩
    · rw [update_of_ne hmn]
      exact h.touched m ((mem_append.mp hm).resolve_right fun hm => hmn (mem_singleton.mp hm))
  · rw [mem_append, not_or, mem_singleton] at hm
    rw [update_of_ne hm.2]
    exact h.untouched m hm.1

/-! ### Rules for the calls -/

/-- An outside that tells the truth about its devices: only three calls change a ledger, a device is
there when it has a ledger, and it reports what is in it. -/
class Truthful (h : Handler iface World) : Prop where
  quiet : ∀ {c : Call} {w : World}, c.Quiet → (h c w).2.ledger = w.ledger
  get : ∀ {name : String} {w : World}, (h (.get name) w).1 = (w.ledger name).isSome
  state : ∀ {name : String} {w : World} {s : DeviceState}, (h (.state name) w).1 = .ok s →
    ∃ l, w.ledger name = some l ∧ s.appliedPlanID = l.appliedPlanID ∧ s.routes = l.routes

instance (cfg : Config) (env : ℕ → Env) : Truthful (handle cfg env) where
  quiet := handle_quiet
  get := handle_get
  state := handle_state

section Rules

abbrev HTriple {α : Type} (h : Handler iface World) (J P : Ledgers → Prop)
    (prog : Prog iface α) (Q : α → Ledgers → Prop) : Prop :=
  Prog.Triple h (fun w => J w.ledger) (fun w => P w.ledger) prog fun a w => Q a w.ledger

abbrev LTriple {α : Type} (cfg : Config) (env : ℕ → Env) (J P : Ledgers → Prop)
    (prog : Prog iface α) (Q : α → Ledgers → Prop) : Prop :=
  HTriple (handle cfg env) J P prog Q

variable {cfg : Config} {h : Handler iface World} {J P : Ledgers → Prop}

variable {c : Call}

theorem triple_call {Q : c.Answer → Ledgers → Prop} (hJ : ∀ L, P L → J L) (hQJ : ∀ a L, Q a L → J L)
    (hcall : ∀ w : World, P w.ledger → Q (h c w).1 (h c w).2.ledger) :
    HTriple h J P (Prog.ask (I := iface) c) Q :=
  fun w hw => Prog.meets_ask (hJ _ hw) (hQJ _ _ (hcall w hw)) (hcall w hw)

variable [Truthful h]

theorem triple_quiet (hc : c.Quiet) (hJ : ∀ L, P L → J L) :
    HTriple h J P (Prog.ask (I := iface) c) fun _ => P :=
  triple_call hJ (fun _ => hJ) fun w hw => by rw [Truthful.quiet hc]; exact hw

theorem triple_answer (hc : c.Quiet) (hJ : ∀ L, P L → J L) :
    HTriple h J P (Prog.ask (I := iface) c) fun a L => P L ∧ ∃ w, a = (h c w).1 :=
  triple_call hJ (fun _ L hL => hJ L hL.1) fun w hw => by
    rw [Truthful.quiet hc]
    exact ⟨hw, w, rfl⟩

theorem triple_now (hJ : ∀ L, P L → J L) : HTriple h J P Ask.now fun _ => P :=
  triple_quiet (c := .now) trivial hJ

theorem triple_topology (hJ : ∀ L, P L → J L) : HTriple h J P Ask.topology fun _ => P :=
  triple_quiet (c := .topology) trivial hJ

theorem triple_done (hJ : ∀ L, P L → J L) : HTriple h J P Ask.done fun _ => P :=
  triple_quiet (c := .done) trivial hJ

theorem triple_order (hJ : ∀ L, P L → J L) : HTriple h J P Ask.order fun _ => P :=
  triple_quiet (c := .order) trivial hJ

variable {name : String}

theorem triple_get (hJ : ∀ L, P L → J L) : HTriple h J P (Ask.get name) fun registered L =>
      P L ∧ registered = (L name).isSome :=
  triple_call (c := .get name) hJ (fun _ L h => hJ L h.1) fun w hw => by
    rw [Truthful.quiet (c := .get name) trivial]
    exact ⟨hw, Truthful.get⟩

theorem triple_state {L₁ : Ledgers} (hJ : J L₁) :
    HTriple h J (· = L₁) (Ask.state name) fun result L => L = L₁ ∧
      ∀ s, result = .ok s → ∃ l, L₁ name = some l ∧ s.appliedPlanID = l.appliedPlanID ∧
        s.routes = l.routes :=
  triple_call (c := .state name) (fun L h => h ▸ hJ) (fun _ L h => h.1 ▸ hJ) fun w hw => by
    rw [Truthful.quiet (c := .state name) trivial, ← hw]
    exact ⟨rfl, fun s hs => Truthful.state hs⟩

/-- What is known after an operation: `Q` if it succeeded, `P` if not. -/
def OnResult {α : Type} (P : Ledgers → Prop) (Q : α → Ledgers → Prop) :
    Except String α → Ledgers → Prop
  | .ok a => Q a
  | .error _ => P

variable {α : Type} {operation : Prog iface (Except String α)}

theorem triple_invoke {Q : α → Ledgers → Prop} (hJ : ∀ L, P L → J L) (hQ : ∀ a L, Q a L → J L)
    (hop : HTriple h J P operation (OnResult P Q)) :
    HTriple h J P (invoke cfg operation) (OnResult P Q) := by
  unfold invoke
  -- on the retries left: after a failure the ledgers are where they were, and `P` holds again
  induction cfg.retryCount with
  | zero => exact hop
  | succ retries ih =>
    refine hop.bind fun result => ?_
    cases result with
    | ok a => exact Prog.Triple.pure (fun w => hQ a w.ledger) fun w hw => hw
    | error e =>
      refine (triple_done hJ).bind fun ended => ?_
      cases ended with
      | some e => exact Prog.Triple.pure (fun w => hJ w.ledger) fun w hw => hw
      | none => exact ih

theorem triple_invoke_keep (hJ : ∀ L, P L → J L) (hop : HTriple h J P operation fun _ => P) :
    HTriple h J P (invoke cfg operation) fun _ => P := by
  have hop' : HTriple h J P operation (OnResult P fun _ => P) :=
    hop.conseq (fun _ hw => hw) fun result w hw => by cases result <;> exact hw
  refine (triple_invoke hJ (fun _ => hJ) hop').conseq (fun _ hw => hw) fun result w hw => ?_
  cases result <;> exact hw

theorem lookup_of_forall₂ {β : Type} {B : String → β → Prop} {names : List String}
    {results : List (String × β)} {b : β}
    (h : List.Forall₂ (fun n r => r.1 = n ∧ B n r.2) names results) {n : String}
    (hn : n ∈ names) : B n ((results.lookup n).getD b) := by
  induction h with
  | nil => cases hn
  | @cons m r names results hr _ ih =>
    obtain ⟨key, value⟩ := r
    obtain ⟨rfl, hB⟩ := hr
    by_cases hnm : n = key
    · subst hnm
      rw [lookup_cons_self]
      exact hB
    · have hne : (n == key) = false := by simpa using hnm
      rw [lookup_cons, hne]
      exact ih ((mem_cons.mp hn).resolve_left hnm)

section Read

-- `A` is what is known once some of the goroutines are over, `B` what a goroutine says about its
-- device and its result
variable {names : List String} {read : String → Prog iface (Except String Unit)}
  {A : List String → Ledgers → Prop} {B : String → Except String Unit → Prop}

theorem triple_readDevice {n : String} (hJ : ∀ L, P L → J L)
    (hread : HTriple h J P (read n) fun r L => P L ∧ B n r)
    (hmissing : B n (.error (errUnregistered n))) :
    HTriple h J P (readDevice read n) fun r L => P L ∧ r.1 = n ∧ B n r.2 := by
  refine (triple_get hJ).bind fun registered => ?_
  cases registered with
  | true =>
    refine (hread.conseq (fun w hw => hw.1) fun _ _ hw => hw).bind fun r => ?_
    exact Prog.Triple.pure (fun w hw => hJ _ hw.1) fun w hw => ⟨hw.1, rfl, hw.2⟩
  | false => exact Prog.Triple.pure (fun w hw => hJ _ hw.1) fun w hw => ⟨hw.1, rfl, hmissing⟩

section

variable (hJ : ∀ done L, A done L → J L)
  (hmem : ∀ done done' L, (∀ n, n ∈ done ↔ n ∈ done') → A done L → A done' L)
include hJ hmem

theorem triple_readBatch {before batch : List String}
    (hone : ∀ done, ∀ n ∈ batch, HTriple h J (A done) (readDevice read n) fun r L => A (done ++ [n]) L ∧ r.1 = n ∧ B n r.2) :
    HTriple h J (A before) (readBatch read batch) fun rs L =>
      A (before ++ batch) L ∧ List.Forall₂ B batch rs := by
  refine (triple_order (hJ before)).bind fun rank => ?_
  have hperm : ∀ n, n ∈ batch.insertionSort (fun a b => rank a ≤ rank b) ↔ n ∈ batch :=
    fun n => (perm_insertionSort _ batch).mem_iff
  have hloop := Prog.Triple.forEach (h := h) (J := fun w => J w.ledger) (p := readDevice read)
    (A := fun done (w : World) => A (before ++ done) w.ledger)
    (B := fun n r => r.1 = n ∧ B n r.2) (l := batch.insertionSort fun a b => rank a ≤ rank b)
    (fun done w => hJ _ w.ledger) ?_
  · rw [append_nil] at hloop
    refine hloop.bind fun results => ?_
    refine Prog.Triple.pure (fun w hw => hJ _ _ hw.1) fun w hw => ⟨hmem _ _ _ ?_ hw.1, ?_⟩
    · intro n
      rw [mem_append, mem_append, hperm]
    · rw [forall₂_map_right_iff, forall₂_same]
      exact fun n hn => lookup_of_forall₂ hw.2 ((hperm n).mpr hn)
  · intro done n rest hl
    have hn : n ∈ batch := (hperm n).mp (hl ▸ by simp)
    exact (hone (before ++ done) n hn).conseq (fun w hw => hw) fun r w hw =>
      ⟨(append_assoc before done [n]) ▸ hw.1, hw.2⟩

/-- **The rule for `readDevices`.** What is known of the goroutines that are over depends on which
they are, and not on their order. -/
theorem triple_readDevices_each
    (hone : ∀ done, ∀ n ∈ names, HTriple h J (A done) (readDevice read n) fun r L => A (done ++ [n]) L ∧ r.1 = n ∧ B n r.2) :
    HTriple h J (A []) (readDevices cfg names read) fun rs L =>
      A names L ∧ List.Forall₂ B names rs := by
  have hflat : (chunks (min cfg.batchSize 32) names).flatten = names :=
    flatten_chunks (by have := cfg.batchSize_pos; omega) names
  have hloop := Prog.Triple.forEach (h := h) (J := fun w => J w.ledger) (p := readBatch read)
    (A := fun done (w : World) => A done.flatten w.ledger)
    (B := fun batch rs => List.Forall₂ B batch rs) (l := chunks (min cfg.batchSize 32) names)
    (fun done w => hJ _ w.ledger) ?_
  · refine hloop.bind fun results => ?_
    refine Prog.Triple.pure (fun w hw => hJ _ _ hw.1) fun w hw => ?_
    rw [hflat] at hw
    refine ⟨hw.1, ?_⟩
    rw [← hflat]
    exact rel_flatten hw.2
  · intro done batch rest hl
    rw [flatten_append, flatten_singleton]
    refine triple_readBatch hJ hmem fun done' n hn => hone done' n ?_
    rw [← hflat]
    exact mem_flatten.mpr ⟨batch, hl ▸ by simp, hn⟩

end

theorem triple_readDevices (hJ : ∀ L, P L → J L)
    (hread : ∀ n ∈ names, HTriple h J P (read n) fun r L => P L ∧ B n r)
    (hmissing : ∀ n ∈ names, B n (.error (errUnregistered n))) :
    HTriple h J P (readDevices cfg names read) fun rs L => P L ∧ List.Forall₂ B names rs :=
  triple_readDevices_each (A := fun _ => P) (fun _ => hJ) (fun _ _ _ _ hP => hP)
    fun _ n hn => triple_readDevice hJ (hread n hn) (hmissing n hn)

end Read

end Rules

end Reconcile
end StarFabric
