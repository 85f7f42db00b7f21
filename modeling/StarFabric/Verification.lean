import StarFabric.Go.Sort
import StarFabric.Reconcile.Transaction

/-!
# The forwarding probe

`internal/verification/routeprobe.go`: the verifier that `App` gives to the reconciler. It reads the
state of every registered device, and one that cannot be read is an error (`Observed`). Then it
follows each intent of the plan hop by hop. The goroutines of one batch are run one after the other,
in an order that is asked for.
-/

namespace StarFabric.Verification

open Go EffectProgram Reconcile ExceptFold List

/-! ### Walks -/

def byMetric (a b : RouteOperation) : Bool := decide (a.metric < b.metric)

abbrev States := List (String × DeviceState)

section Walk

variable (sort : SortSlice byMetric) (edges : List String) (states : States) (intent : RouteIntent)

def nextHop (current : String) : Except String String :=
  let unavailable := "intent " ++ intent.id ++ " reached unavailable device " ++ current
  match states.lookup current with
  | none => .error unavailable
  | some state =>
    if state.healthy = false then .error unavailable
    else match sort.sort
        (state.routes.filter fun route => route.routePrefix = intent.destinationPrefix) with
      | [] => .error ("intent " ++ intent.id ++ " has blackhole at " ++ current)
      | candidate :: _ =>
        if edgeKey current candidate.nextHopNode ∉ edges then
          .error ("intent " ++ intent.id ++ " uses unavailable edge " ++ current ++ " -> " ++
            candidate.nextHopNode)
        else .ok candidate.nextHopNode

def walk : ℕ → List String → String → Except String Unit
  | 0, _, current =>
    if current ≠ intent.destination then
      .error ("intent " ++ intent.id ++ " exceeded hop limit")
    else .ok ()
  | rounds + 1, visited, current =>
    if current = intent.destination then .ok ()
    else if current ∈ visited then
      .error ("intent " ++ intent.id ++ " forwarding loop at " ++ current)
    else match nextHop sort edges states intent current with
      | .error e => .error e
      | .ok next => walk rounds (current :: visited) next

end Walk

def forward (sort : SortSlice byMetric) (snapshot : TopologySnapshot) (verifiedAt : Time)
    (states : States) (intents : List RouteIntent) : Except String Unit :=
  intents.forM fun intent =>
    walk sort (Validation.usableEdges snapshot verifiedAt) states intent
      (snapshot.nodes.length + 1) [] intent.source

/-! ### The probe -/

def readState (name : String) : Prog iface (String × Except String DeviceState) := do
  return (name, ← Ask.state name)

def entry (name : String) : Except String DeviceState → Except String (String × DeviceState)
  | .error e => .error ("read " ++ name ++ ": " ++ e)
  | .ok state => .ok (name, state)

def collect (results : List (String × Except String DeviceState)) (batch : List String) :
    Except String States :=
  batch.mapM fun name => entry name ((results.lookup name).getD (.ok default))

def readBatch (batch : List String) : Prog iface (Except String States) := do
  let rank ← Ask.order
  let results ← Prog.forEach readState (batch.insertionSort fun a b => rank a ≤ rank b)
  return collect results batch

def readStates : List (List String) → States → Prog iface (Except String States)
  | [], states => return .ok states
  | batch :: rest, states => do
    match ← readBatch batch with
    | .error e => return .error e
    | .ok observed => readStates rest (states ++ observed)

/-- `RouteProbe.verify`, where `names` are the devices of the registry. -/
def RouteProbe.verify (sort : SortSlice byMetric) (names : List String) (plan : RoutePlan) :
    Prog iface (Except String Unit) := do
  let snapshot ← Ask.topology
  let verifiedAt ← Ask.now
  match ← readStates (chunks 8 names) [] with
  | .error e => return .error e
  | .ok states => return forward sort snapshot verifiedAt states plan.intents

def failure : Except String Unit → Option String
  | .ok () => none
  | .error e => some e

/-- `errors.Join` of the failures of several verifiers. -/
def joined (results : List (Except String Unit)) : Except String Unit :=
  let failures := results.filterMap failure
  if failures = [] then .ok () else .error (joinErrors failures)

def Multi.verify (verifiers : List (RoutePlan → Prog iface (Except String Unit)))
    (plan : RoutePlan) : Prog iface (Except String Unit) := do
  -- all verifiers are asked, also after a failure
  return joined (← Prog.forEach (fun verify => verify plan) verifiers)

/-! ### What a walk depends on -/

section

variable {sort : SortSlice byMetric} {edges : List String} {states states' : States}
  {intent : RouteIntent}

variable {current : String}

theorem nextHop_ne_ok (h : ∀ state, states.lookup current = some state → state.routes = [])
    (next : String) : nextHop sort edges states intent current ≠ .ok next := by
  unfold nextHop
  cases hstate : states.lookup current with
  | none => exact nofun
  | some state =>
    have hnil : sort.sort (state.routes.filter fun route =>
        route.routePrefix = intent.destinationPrefix) = [] := by
      rw [h state hstate, filter_nil]
      exact (sort.perm []).eq_nil
    dsimp only
    rw [hnil]
    split_ifs
    · exact nofun
    · exact nofun

theorem walk_congr (idle : String → Prop)
    (hnil : ∀ name, idle name → ∀ state, states.lookup name = some state → state.routes = [])
    (hsame : ∀ name, ¬ idle name → states'.lookup name = states.lookup name) {rounds : ℕ}
    {visited : List String} (h : walk sort edges states intent rounds visited current = .ok ()) :
    walk sort edges states' intent rounds visited current = .ok () := by
  induction rounds generalizing visited current with
  | zero => exact h
  | succ rounds ih =>
    unfold walk at h ⊢
    split_ifs at h ⊢ with hdest hvisited
    · rfl
    · cases hnext : nextHop sort edges states intent current with
      | error e =>
        rw [hnext] at h
        cases h
      | ok next =>
        have hbusy : ¬ idle current := fun hidle => nextHop_ne_ok (hnil current hidle) next hnext
        have hnext' : nextHop sort edges states' intent current = .ok next := by
          rw [← hnext]
          unfold nextHop
          rw [hsame current hbusy]
        rw [hnext] at h
        rw [hnext']
        exact ih h

theorem forward_congr {snapshot : TopologySnapshot} {verifiedAt : Time} {intents : List RouteIntent}
    (idle : String → Prop)
    (hnil : ∀ name, idle name → ∀ state, states.lookup name = some state → state.routes = [])
    (hsame : ∀ name, ¬ idle name → states'.lookup name = states.lookup name)
    (h : forward sort snapshot verifiedAt states intents = .ok ()) :
    forward sort snapshot verifiedAt states' intents = .ok () := by
  refine forM_eq_ok_iff.mpr fun intent hintent => ?_
  exact walk_congr idle hnil hsame (forM_eq_ok_iff.mp h intent hintent)

end

/-! ### What the probe reads -/

def Observed (S : String → Except String DeviceState → Prop) (names : List String) :
    Except String States → Prop
  | .ok states => (∀ entry ∈ states, S entry.1 (.ok entry.2)) ∧
      ∀ name, name ∈ states.map Prod.fst ↔ name ∈ names
  | .error _ => ∃ name ∈ names, ∃ e, S name (.error e)

section Observed

variable {S : String → Except String DeviceState → Prop} {names : List String} {states : States}

variable {name : String}

theorem Observed.lookup (h : Observed S names (.ok states)) (hname : name ∈ names) :
    ∃ state, states.lookup name = some state ∧ S name (.ok state) := by
  have hmem := (h.2 name).mpr hname
  have hentries := h.1
  clear h
  induction states with
  | nil => cases hmem
  | cons entry states ih =>
    obtain ⟨key, state⟩ := entry
    obtain ⟨hentry, hentries⟩ := forall_mem_cons.mp hentries
    by_cases hkey : name = key
    · subst hkey
      exact ⟨state, lookup_cons_self, hentry⟩
    · rw [lookup_cons, beq_false_of_ne hkey]
      exact ih ((mem_cons.mp hmem).resolve_left hkey) hentries

theorem Observed.lookup_eq_none (h : Observed S names (.ok states)) (hname : name ∉ names) :
    states.lookup name = none := by
  rw [lookup_eq_none_iff]
  intro entry hentry
  rw [bne_iff_ne]
  rintro rfl
  exact hname ((h.2 _).mp (mem_map_of_mem hentry))

theorem entry_eq_ok {result : Except String DeviceState} {out : String × DeviceState}
    (h : entry name result = .ok out) :
    out.1 = name ∧ result = .ok out.2 := by
  cases result with
  | error e => cases h
  | ok state =>
    cases h
    exact ⟨rfl, rfl⟩

theorem observed_collect {results : List (String × Except String DeviceState)}
    (h : ∀ name ∈ names, S name ((results.lookup name).getD (.ok default))) :
    Observed S names (collect results names) := by
  cases hcollect : collect results names with
  | error e =>
    obtain ⟨name, hname, hentry⟩ := mapM_eq_error hcollect
    have hS := h name hname
    cases hresult : (results.lookup name).getD (.ok default) with
    | error e => exact ⟨name, hname, e, hresult ▸ hS⟩
    | ok state =>
      rw [hresult] at hentry
      cases hentry
  | ok states =>
    obtain ⟨hfrom, hto⟩ := mapM_ok hcollect
    refine ⟨fun out hout => ?_, fun name => ⟨fun hname => ?_, fun hname => ?_⟩⟩
    · obtain ⟨name, hname, hentry⟩ := hfrom out hout
      obtain ⟨rfl, hresult⟩ := entry_eq_ok hentry
      exact hresult ▸ h _ hname
    · obtain ⟨out, hout, rfl⟩ := mem_map.mp hname
      obtain ⟨name, hname, hentry⟩ := hfrom out hout
      exact (entry_eq_ok hentry).1 ▸ hname
    · obtain ⟨out, hout, hentry⟩ := hto name hname
      exact mem_map.mpr ⟨out, hout, (entry_eq_ok hentry).1⟩

theorem Observed.append {more : List String} {observed : States}
    (h : Observed S names (.ok states)) (hmore : Observed S more (.ok observed)) :
    Observed S (names ++ more) (.ok (states ++ observed)) := by
  refine ⟨forall_mem_append.mpr ⟨h.1, hmore.1⟩, fun name => ?_⟩
  rw [map_append, mem_append, mem_append, h.2, hmore.2]

end Observed

section Rules

variable {h : Handler iface World} [Truthful h] {J : Ledgers → Prop} {L : Ledgers}
  {S : String → Except String DeviceState → Prop} {names : List String}

theorem triple_readBatch {batch : List String} (hJ : J L)
    (hS : ∀ name ∈ batch, ∀ w : World, w.ledger = L → S name (h (.state name) w).1) :
    HTriple h J (· = L) (readBatch batch) fun r L' => L' = L ∧ Observed S batch r := by
  have hJ' : ∀ L', L' = L → J L' := fun L' hL => hL ▸ hJ
  refine (triple_order hJ').bind fun rank => ?_
  have hperm : ∀ name, name ∈ batch.insertionSort (fun a b => rank a ≤ rank b) ↔ name ∈ batch :=
    fun name => (perm_insertionSort _ batch).mem_iff
  have hloop := Prog.Triple.forEach (h := h) (J := fun w => J w.ledger) (p := readState)
    (A := fun _ (w : World) => w.ledger = L) (B := fun name r => r.1 = name ∧ S name r.2)
    (l := batch.insertionSort fun a b => rank a ≤ rank b) (fun _ w => hJ' _) ?_
  · refine hloop.bind fun results => ?_
    refine Prog.Triple.pure (fun w hw => hJ' _ hw.1) fun w hw => ⟨hw.1, ?_⟩
    exact observed_collect fun name hname => lookup_of_forall₂ hw.2 ((hperm name).mpr hname)
  · intro done name rest hl
    have hname : name ∈ batch := (hperm name).mp (hl ▸ by simp)
    have hread : HTriple h J (· = L) (Ask.state name) fun r L' => L' = L ∧ S name r :=
      triple_call (c := .state name) hJ' (fun _ L' hL => hJ' _ hL.1) fun w hw => by
        rw [Truthful.quiet (c := .state name) trivial]
        exact ⟨hw, hS name hname w hw⟩
    refine hread.bind fun r => ?_
    exact Prog.Triple.pure (fun w hw => hJ' _ hw.1) fun w hw => ⟨hw.1, rfl, hw.2⟩

theorem triple_readStates_aux {batches : List (List String)} {done : List String} {states : States}
    (hJ : J L)
    (hS : ∀ name ∈ batches.flatten, ∀ w : World, w.ledger = L → S name (h (.state name) w).1)
    (hdone : Observed S done (.ok states)) :
    HTriple h J (· = L) (readStates batches states) fun r L' =>
      L' = L ∧ Observed S (done ++ batches.flatten) r := by
  induction batches generalizing done states with
  | nil =>
    refine Prog.Triple.pure (fun w hw => hw ▸ hJ) fun w hw => ⟨hw, ?_⟩
    rw [flatten_nil, append_nil]
    exact hdone
  | cons batch rest ih =>
    have hbatch := triple_readBatch hJ fun name hname => hS name (mem_append_left _ hname)
    refine hbatch.bind fun r => Prog.Triple.of_imp fun hr => ?_
    cases r with
    | error e =>
      refine Prog.Triple.pure (fun w hw => hw ▸ hJ) fun w hw => ⟨hw, ?_⟩
      obtain ⟨name, hname, e, he⟩ := hr
      exact ⟨name, mem_append_right _ (mem_append_left _ hname), e, he⟩
    | ok observed =>
      rw [flatten_cons, ← append_assoc]
      exact ih (fun name hname => hS name (mem_append_right _ hname)) (hdone.append hr)

theorem triple_readStates (hJ : J L)
    (hS : ∀ name ∈ names, ∀ w : World, w.ledger = L → S name (h (.state name) w).1) :
    HTriple h J (· = L) (readStates (chunks 8 names) []) fun r L' =>
      L' = L ∧ Observed S names r := by
  have hflat : (chunks 8 names).flatten = names := flatten_chunks (by decide) names
  have hstart : Observed S [] (.ok []) := ⟨by simp, by simp⟩
  rw [← hflat] at hS
  have hread := triple_readStates_aux hJ hS hstart
  rw [hflat, nil_append] at hread
  exact hread

variable {sort : SortSlice byMetric} {plan : RoutePlan}

/-- **The verdict of the probe** is that of the walks through the states it has read, or the failure
of a device. No ledger is changed. -/
theorem triple_probe (hJ : J L)
    (hS : ∀ name ∈ names, ∀ w : World, w.ledger = L → S name (h (.state name) w).1) :
    HTriple h J (· = L) (RouteProbe.verify sort names plan) fun r L' => L' = L ∧
      (((∃ e, r = .error e) ∧ ∃ name ∈ names, ∃ e, S name (.error e)) ∨
        ∃ w w' states, Observed S names (.ok states) ∧
          r = forward sort (h .topology w).1 (h .now w').1 states plan.intents) := by
  have hJ' : ∀ L', L' = L → J L' := fun L' hL => hL ▸ hJ
  have htopology : HTriple h J (· = L) Ask.topology fun a L' =>
      L' = L ∧ ∃ w, a = (h .topology w).1 := triple_answer (c := .topology) trivial hJ'
  have hnow : HTriple h J (· = L) Ask.now fun a L' => L' = L ∧ ∃ w, a = (h .now w).1 :=
    triple_answer (c := .now) trivial hJ'
  refine htopology.bind fun snapshot => Prog.Triple.of_imp fun hsnapshot => ?_
  refine hnow.bind fun verifiedAt => Prog.Triple.of_imp fun hverifiedAt => ?_
  refine (triple_readStates hJ hS).bind fun r => Prog.Triple.of_imp fun hr => ?_
  obtain ⟨w, rfl⟩ := hsnapshot
  obtain ⟨w', rfl⟩ := hverifiedAt
  cases r with
  | error e =>
    exact Prog.Triple.pure (fun _ hw => hJ' _ hw) fun _ hw => ⟨hw, .inl ⟨⟨e, rfl⟩, hr⟩⟩
  | ok states =>
    exact Prog.Triple.pure (fun _ hw => hJ' _ hw) fun _ hw => ⟨hw, .inr ⟨w, w', states, hr, rfl⟩⟩

theorem joined_singleton (result : Except String Unit) : joined [result] = result := by
  cases result with
  | ok u => rfl
  | error e =>
    have hjoin : joinErrors [e] = e := String.intercalate_singleton
    show Except.error (joinErrors [e]) = .error e
    rw [hjoin]

omit [Truthful h] in
theorem run_multi (verifier : RoutePlan → Prog iface (Except String Unit)) (w : World) :
    Prog.run h (Multi.verify [verifier] plan) w = Prog.run h (verifier plan) w := by
  unfold Multi.verify
  simp [Prog.forEach, joined_singleton]

end Rules

end StarFabric.Verification
