import StarFabric.Policy.Path
import StarFabric.Lib.Fold
import StarFabric.Lib.Losses
import Mathlib.Algebra.Order.BigOperators.Group.List

/-!
# Path values without bounds

The search computes costs, latency and loss in 64 bits, and only the sum of the costs is guarded
against overflow. The same values in unbounded integers are `exactCost`, `totalCost`, `totalLatency`
and `totalLoss`. Losses cannot overflow (`foldl_combinedLoss_bounds`). A cost can, for
*reliability*, and so can the latency (`latency_wraps`).
-/

namespace StarFabric.Policy

open ExceptFold Go Int Int64 List

/-! ### The values -/

def exactCost (link : Link) (policyName : String) : ℤ :=
  if policyName = "hops" then 1
  else if policyName = "capacity" then
    (1000000000000 : ℤ).tdiv link.capacityBPS.toInt + max 1 (link.latencyUS.toInt.tdiv 1000)
  else if policyName = "reliability" then
    max 1 (1000000 - link.reliabilityPPM.toInt) + max 1 (link.latencyUS.toInt.tdiv 100)
  else max 1 link.latencyUS.toInt

def exactCombinedLoss (current next : ℤ) : ℤ :=
  current + next - (current * next).tdiv 1000000

def totalCost (policyName : String) (links : List Link) : ℤ :=
  (links.map fun link => exactCost link policyName).sum

def totalLatency (links : List Link) : ℤ := (links.map fun link => link.latencyUS.toInt).sum

def totalLoss (links : List Link) : ℤ :=
  (links.map fun link => link.lossPPM.toInt).foldl exactCombinedLoss 0

/-- The loss of some links together, in parts per million and without rounding: what gets through
is the product of what gets through each link. -/
def exactLoss (losses : List Int64) : ℚ :=
  1000000 * (1 - (losses.map fun loss : Int64 => 1 - (loss.toInt : ℚ) / 1000000).prod)

def IsLoss (loss : Int64) : Prop := 0 ≤ loss ∧ loss ≤ 1000000

section Losses

variable {a b : Int64}

theorem IsLoss.share (h : IsLoss a) : Losses.Share 1000000 a.toInt :=
  ⟨le_iff_toInt_le.mp h.1, le_iff_toInt_le.mp h.2⟩

theorem isLoss_of_share (h : Losses.Share 1000000 a.toInt) : IsLoss a :=
  ⟨le_iff_toInt_le.mpr h.1, le_iff_toInt_le.mpr h.2⟩

theorem exactCombinedLoss_eq {m n : ℤ} (hm : Losses.Share 1000000 m)
    (hn : Losses.Share 1000000 n) : exactCombinedLoss m n = Losses.combine 1000000 m n := by
  unfold exactCombinedLoss Losses.combine
  rw [tdiv_eq_ediv_of_nonneg (mul_nonneg hm.1 hn.1)]

theorem toInt_combinedLoss (ha : IsLoss a) (hb : IsLoss b) :
    (combinedLoss a b).toInt = Losses.combine 1000000 a.toInt b.toInt := by
  have hsa : Losses.Share 1000000 a.toInt := ha.share
  have hsb : Losses.Share 1000000 b.toInt := hb.share
  have hcombined : Losses.Share 1000000 (Losses.combine 1000000 a.toInt b.toInt) :=
    hsa.combine (by decide) hsb
  have hproduct : (a * b).toInt = a.toInt * b.toInt := by
    have hnonneg : 0 ≤ a.toInt * b.toInt := mul_nonneg hsa.1 hsb.1
    have hle : a.toInt * b.toInt ≤ 1000000 * 1000000 := mul_le_mul hsa.2 hsb.2 hsb.1 (by decide)
    rw [toInt_mul]
    exact bmod_eq_self (by omega) (by omega)
  have hsum : (a + b).toInt = a.toInt + b.toInt := by
    refine toInt_add_of_lt ha.1 hb.1 ?_
    have h₁ := hsa.2
    have h₂ := hsb.2
    omega
  have hquotient : (a * b / 1000000).toInt = (a.toInt * b.toInt).tdiv 1000000 := by
    rw [toInt_div_of_ne_right _ _ (by decide), hproduct]
    rfl
  rw [← exactCombinedLoss_eq hsa hsb] at hcombined ⊢
  unfold combinedLoss
  rw [toInt_sub, hsum, hquotient]
  have hlow := hcombined.1
  have hhigh := hcombined.2
  unfold exactCombinedLoss at hlow hhigh
  exact bmod_eq_self (by omega) (by omega)

theorem IsLoss.combine (ha : IsLoss a) (hb : IsLoss b) : IsLoss (combinedLoss a b) := by
  refine isLoss_of_share ?_
  rw [toInt_combinedLoss ha hb]
  exact ha.share.combine (by decide) hb.share

variable {losses : List Int64}

theorem share_of_mem_map (h : ∀ loss ∈ losses, IsLoss loss) :
    ∀ n ∈ losses.map Int64.toInt, Losses.Share 1000000 n := by
  intro n hn
  obtain ⟨loss, hloss, rfl⟩ := mem_map.mp hn
  exact (h loss hloss).share

theorem toInt_foldl_combinedLoss (h : ∀ loss ∈ losses, IsLoss loss) :
    IsLoss (losses.foldl combinedLoss 0) ∧ (losses.foldl combinedLoss 0).toInt =
      Losses.combined 1000000 (losses.map Int64.toInt) := by
  induction losses using reverseRecOn with
  | nil => exact ⟨⟨le_rfl, by decide⟩, rfl⟩
  | append_singleton losses loss ih =>
    obtain ⟨hlosses, hlast⟩ := forall_mem_append.mp h
    have hloss : IsLoss loss := hlast loss (mem_singleton_self loss)
    obtain ⟨hbefore, heq⟩ := ih hlosses
    rw [foldl_append, map_append]
    show IsLoss (combinedLoss _ loss) ∧ (combinedLoss _ loss).toInt = _
    refine ⟨hbefore.combine hloss, ?_⟩
    rw [toInt_combinedLoss hbefore hloss, heq]
    exact (Losses.combined_append_singleton _ _).symm

/-- **The composed loss.** Folding `combinedLoss` over losses between zero and a million gives at
least the exact loss and at most one part in a million more for each link. It does not pass a
million, it is not below the loss of any link, and one more link does not lower it. -/
theorem foldl_combinedLoss_bounds (h : ∀ loss ∈ losses, 0 ≤ loss ∧ loss ≤ 1000000) :
    exactLoss losses ≤ (losses.foldl combinedLoss 0).toInt ∧
      ((losses.foldl combinedLoss 0).toInt : ℚ) ≤ exactLoss losses + losses.length ∧
      losses.foldl combinedLoss 0 ≤ 1000000 ∧
      (∀ loss ∈ losses, loss ≤ losses.foldl combinedLoss 0) ∧
      ∀ next, 0 ≤ next → next ≤ 1000000 →
        losses.foldl combinedLoss 0 ≤ (losses ++ [next]).foldl combinedLoss 0 := by
  have hlosses : ∀ loss ∈ losses, IsLoss loss := h
  obtain ⟨hisLoss, heq⟩ := toInt_foldl_combinedLoss hlosses
  have hshares := share_of_mem_map hlosses
  have hexact : exactLoss losses = Losses.exact 1000000 (losses.map Int64.toInt) := by
    unfold exactLoss Losses.exact
    rw [map_map]
    rfl
  obtain ⟨hlower, hupper⟩ := Losses.exact_le_combined_le (by decide) hshares
  rw [length_map, ← hexact, ← heq] at hupper
  rw [← hexact, ← heq] at hlower
  refine ⟨hlower, hupper, hisLoss.2, fun loss hloss => ?_, fun next hnonneg hle => ?_⟩
  · rw [le_iff_toInt_le, heq]
    exact Losses.le_combined (by decide) hshares (mem_map_of_mem hloss)
  · have hnext : IsLoss next := ⟨hnonneg, hle⟩
    rw [foldl_append, le_iff_toInt_le]
    show _ ≤ (combinedLoss _ next).toInt
    rw [toInt_combinedLoss hisLoss hnext]
    exact Losses.le_combine_left hisLoss.share hnext.share

theorem foldl_combinedLoss_bounds_half :
    (∀ loss ∈ [(500000 : Int64), 1], 0 ≤ loss ∧ loss ≤ 1000000) ∧
      exactLoss [500000, 1] ≤ ((500001 : Int64).toInt : ℚ) := by
  have hlosses : ∀ loss ∈ [(500000 : Int64), 1], 0 ≤ loss ∧ loss ≤ 1000000 := by
    intro loss hloss
    rcases mem_pair.mp hloss with rfl | rfl <;> decide
  exact ⟨hlosses, (foldl_combinedLoss_bounds hlosses).1⟩

end Losses

section Costs

variable {link : Link} {at_ : Time} {maxTelemetryAge : Duration} {policyName : String}

theorem exactCost_pos (h : link.Usable at_ maxTelemetryAge) : 0 < exactCost link policyName := by
  have hcapacity : 0 < link.capacityBPS.toInt := lt_iff_toInt_lt.mp h.capacity
  have hone : ∀ n : ℤ, 0 < max 1 n := fun n => lt_of_lt_of_le one_pos (le_max_left 1 n)
  unfold exactCost
  split_ifs
  · exact one_pos
  · have hquotient : 0 ≤ (1000000000000 : ℤ).tdiv link.capacityBPS.toInt :=
      Int.tdiv_nonneg (by decide) hcapacity.le
    exact add_pos_of_nonneg_of_pos hquotient (hone _)
  · exact add_pos (hone _) (hone _)
  · exact hone _

theorem toInt_max_div (latency divisor : Int64) (hdivisor : divisor ≠ -1) :
    (max 1 (latency / divisor)).toInt = max 1 (latency.toInt.tdiv divisor.toInt) := by
  rw [toInt_max, toInt_div_of_ne_right _ _ hdivisor]
  rfl

theorem toInt_add_of_pos {a b : Int64} {m n : ℤ} (ha : a.toInt = m) (hb : b.toInt = n)
    (hm : 0 ≤ m) (hn : 0 ≤ n) (hlt : m + n < 2 ^ 63) : (a + b).toInt = m + n := by
  subst ha hb
  rw [toInt_add]
  exact bmod_eq_self (by omega) hlt

theorem edgeCost_exact_iff (h : link.Usable at_ maxTelemetryAge) :
    (edgeCost link policyName).toInt = exactCost link policyName ↔
      exactCost link policyName < 2 ^ 63 := by
  have hone : ∀ n : ℤ, 0 ≤ max 1 n := fun n => zero_le_one.trans (le_max_left 1 n)
  constructor
  · intro heq
    rw [← heq]
    exact toInt_lt _
  · intro hlt
    unfold exactCost at hlt
    unfold edgeCost exactCost
    split_ifs with hhops hcapacity hreliability
    · rfl
    · rw [if_neg hhops, if_pos hcapacity] at hlt
      have hpos : 0 < link.capacityBPS.toInt := lt_iff_toInt_lt.mp h.capacity
      have hquotient : (1000000000000 / link.capacityBPS).toInt =
          (1000000000000 : ℤ).tdiv link.capacityBPS.toInt :=
        toInt_div_of_ne_left _ _ (by decide)
      exact toInt_add_of_pos hquotient (toInt_max_div _ _ (by decide))
        (Int.tdiv_nonneg (by decide) hpos.le) (hone _) hlt
    · rw [if_neg hhops, if_neg hcapacity, if_pos hreliability] at hlt
      -- the difference fits, as the sum does
      have hdifference : (1000000 - link.reliabilityPPM).toInt =
          1000000 - link.reliabilityPPM.toInt := by
        have hbound := toInt_lt link.reliabilityPPM
        have hmillion : (1000000 : Int64).toInt = 1000000 := rfl
        rw [toInt_sub, hmillion]
        exact bmod_eq_self (by omega) (by omega)
      have hmax : (max 1 (1000000 - link.reliabilityPPM)).toInt =
          max 1 (1000000 - link.reliabilityPPM.toInt) := by
        rw [toInt_max, hdifference]
        rfl
      exact toInt_add_of_pos hmax (toInt_max_div _ _ (by decide)) (hone _) (hone _) hlt
    · exact toInt_max 1 link.latencyUS

theorem exactCost_lt (h : link.Usable at_ maxTelemetryAge) (hpolicy : policyName ≠ "reliability") :
    exactCost link policyName < 2 ^ 63 := by
  have hlatency : link.latencyUS.toInt < 2 ^ 63 := toInt_lt _
  have hnonneg : 0 ≤ link.latencyUS.toInt := le_iff_toInt_le.mp h.latency
  unfold exactCost
  split_ifs
  · decide
  · have hquotient : (1000000000000 : ℤ).tdiv link.capacityBPS.toInt ≤ 1000000000000 := by
      rw [tdiv_eq_ediv_of_nonneg (by decide)]
      exact ediv_le_self _ (by decide)
    have hdiv : link.latencyUS.toInt.tdiv 1000 = link.latencyUS.toInt / 1000 :=
      tdiv_eq_ediv_of_nonneg hnonneg
    omega
  · omega

end Costs

section Paths

variable {links : List Link}

theorem totalLatency_nonneg (h : ∀ link ∈ links, 0 ≤ link.latencyUS) : 0 ≤ totalLatency links := by
  refine sum_nonneg fun n hn => ?_
  obtain ⟨link, hlink, rfl⟩ := mem_map.mp hn
  exact le_iff_toInt_le.mp (h link hlink)

theorem foldl_addLink_latency (links : List Link) (path : Path) :
    (links.foldl addLink path).latencyUS.toInt =
      (path.latencyUS.toInt + totalLatency links).bmod (2 ^ 64) := by
  induction links generalizing path with
  | nil =>
    have hlow := le_toInt path.latencyUS
    have hhigh := toInt_lt path.latencyUS
    show path.latencyUS.toInt = (path.latencyUS.toInt + 0).bmod (2 ^ 64)
    rw [add_zero]
    exact (bmod_eq_self hlow hhigh).symm
  | cons link links ih =>
    have hsum : totalLatency (link :: links) = link.latencyUS.toInt + totalLatency links := sum_cons
    rw [foldl_cons, ih, hsum, ← add_assoc]
    show ((path.latencyUS + link.latencyUS).toInt + totalLatency links).bmod (2 ^ 64) = _
    rw [toInt_add, bmod_add_bmod]

theorem compose_latency_exact_iff (source : String) (cost : Int64)
    (h : ∀ link ∈ links, 0 ≤ link.latencyUS) :
    (compose source cost links).latencyUS.toInt = totalLatency links ↔
      totalLatency links < 2 ^ 63 := by
  have hnonneg : 0 ≤ totalLatency links := totalLatency_nonneg h
  have hmod : (compose source cost links).latencyUS.toInt = (totalLatency links).bmod (2 ^ 64) := by
    have hfold := foldl_addLink_latency links
      { nodes := [source], capacityBPS := Int64.maxValue, cost := cost }
    rwa [show (0 : Int64).toInt + totalLatency links = totalLatency links from zero_add _] at hfold
  constructor
  · intro heq
    rw [← heq]
    exact toInt_lt _
  · intro hlt
    rw [hmod]
    exact bmod_eq_self (by omega) hlt

theorem foldl_addLink_loss (links : List Link) (path : Path) :
    (links.foldl addLink path).lossPPM =
      (links.map Link.lossPPM).foldl combinedLoss path.lossPPM := by
  induction links generalizing path with
  | nil => rfl
  | cons link links ih =>
    rw [foldl_cons, ih]
    rfl

theorem compose_lossPPM (source : String) (cost : Int64) (links : List Link) :
    (compose source cost links).lossPPM = (links.map Link.lossPPM).foldl combinedLoss 0 :=
  foldl_addLink_loss links _

theorem totalLoss_eq (h : ∀ link ∈ links, IsLoss link.lossPPM) :
    totalLoss links = Losses.combined 1000000 ((links.map Link.lossPPM).map Int64.toInt) := by
  rw [map_map]
  show (links.map fun link => link.lossPPM.toInt).foldl exactCombinedLoss 0 =
    Losses.combined 1000000 (links.map fun link => link.lossPPM.toInt)
  induction links using reverseRecOn with
  | nil => rfl
  | append_singleton links link ih =>
    obtain ⟨hlinks, hlast⟩ := forall_mem_append.mp h
    have hlosses : ∀ n ∈ links.map fun link => link.lossPPM.toInt, Losses.Share 1000000 n := by
      intro n hn
      obtain ⟨l, hl, rfl⟩ := mem_map.mp hn
      exact (hlinks l hl).share
    have hloss : Losses.Share 1000000 link.lossPPM.toInt :=
      (hlast link (mem_singleton_self link)).share
    rw [map_append, foldl_append, ih hlinks]
    show exactCombinedLoss _ link.lossPPM.toInt = Losses.combined 1000000 (_ ++ [link.lossPPM.toInt])
    rw [Losses.combined_append_singleton]
    exact exactCombinedLoss_eq (Losses.share_combined (by decide) hlosses) hloss

theorem compose_loss_exact (source : String) (cost : Int64)
    (h : ∀ link ∈ links, IsLoss link.lossPPM) :
    (compose source cost links).lossPPM.toInt = totalLoss links := by
  rw [compose_lossPPM, totalLoss_eq h]
  exact (toInt_foldl_combinedLoss (forall_mem_map.mpr h)).2

end Paths

/-! ### What a search returns -/

section

variable {clock : Time} {snapshot : TopologySnapshot} {intent : RouteIntent} {policyName : String}
  {options : Options} {path : Path} {edges : List Edge}

theorem length_eq_some {es : List Edge} {d d' : Int64}
    (hes : ∀ e ∈ es, e ∈ (graph snapshot intent policyName options).edges) (hd : 0 ≤ d)
    (h : (graph snapshot intent policyName options).length d es = some d') :
    d'.toInt = d.toInt + (es.map fun e => e.cost.toInt).sum := by
  induction es generalizing d with
  | nil =>
    cases h
    rw [map_nil, sum_nil, add_zero]
  | cons e es ih =>
    obtain ⟨middle, hmiddle, h⟩ := Option.bind_eq_some_iff.mp h
    obtain ⟨hpos, hsum⟩ := (extend_eq_some (hes e mem_cons_self) hd).mp hmiddle
    have hmiddle' : 0 ≤ middle := by
      have hd' := le_iff_toInt_le.mp hd
      have hpos' := lt_iff_toInt_lt.mp hpos
      have h0 : (0 : Int64).toInt = 0 := rfl
      rw [le_iff_toInt_le]
      omega
    rw [ih (fun f hf => hes f (mem_cons_of_mem e hf)) hmiddle' h, hsum, map_cons,
      sum_cons, add_assoc]

theorem Found.cost_eq (h : Found snapshot intent policyName options path edges) :
    path.cost.toInt = (edges.map fun e => e.cost.toInt).sum := by
  have hlength := length_eq_some h.walk.mem_edges le_rfl h.length
  rwa [show (0 : Int64).toInt = 0 from rfl, zero_add] at hlength

def ExactCosts (snapshot : TopologySnapshot) (intent : RouteIntent) (policyName : String)
    (options : Options) : Prop :=
  ∀ link ∈ snapshot.links, Admitted snapshot intent options link →
    (edgeCost link policyName).toInt = exactCost link policyName

/-- All costs that the search uses, and the values that it reports for the path along the links,
are those of unbounded integers. -/
structure Faithful (snapshot : TopologySnapshot) (intent : RouteIntent) (policyName : String)
    (options : Options) (path : Path) (links : List Link) : Prop where
  edges : ExactCosts snapshot intent policyName options
  cost : path.cost.toInt = totalCost policyName links
  latency : path.latencyUS.toInt = totalLatency links
  loss : path.lossPPM.toInt = totalLoss links

theorem Found.totalCost_eq (h : Found snapshot intent policyName options path edges)
    (hedges : ExactCosts snapshot intent policyName options) :
    path.cost.toInt = totalCost policyName (edges.map Edge.link) := by
  rw [h.cost_eq]
  unfold totalCost
  rw [map_map]
  refine congrArg List.sum (map_congr_left fun e he => ?_)
  obtain ⟨hmem, hadmitted, hcost⟩ := mem_edges.mp (h.walk.mem_edges e he)
  rw [hcost]
  exact hedges e.link hmem hadmitted

end

def chain (latency : Int64) : TopologySnapshot where
  version := 1
  nodes := [{ id := "s", enabled := true }, { id := "a", enabled := true },
    { id := "d", enabled := true }]
  links := [
    { id := "sa", source := "s", target := "a", adminUp := true, operationalUp := true
      latencyUS := latency, capacityBPS := 100 },
    { id := "ad", source := "a", target := "d", adminUp := true, operationalUp := true
      latencyUS := latency, capacityBPS := 100 }]

def chainIntent : RouteIntent :=
  { id := "i", source := "s", destination := "d", destinationPrefix := "10.1.0.0/16"
    policy := "hops", maxLatencyUS := 10 }

end StarFabric.Policy
