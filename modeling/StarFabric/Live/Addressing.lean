import StarFabric.Model.Topology
import StarFabric.Lib.Triangle
import Mathlib.Order.Interval.Finset.Nat

/-!
# Addresses of contacts

`lab/live/model.py` gives every pair of nodes a /30 of its own, and `livePairNextHop` of the
controller computes the address of the far end from the labels of the two nodes. A pair is numbered
by the positions of its nodes among the sorted ids (`Triangle.number`). The controller arrives at
the address that the fabric binds (`live_addresses`).
-/

namespace StarFabric.Live

open Go List

def base : ℕ := 10 * 2 ^ 24 + 128 * 2 ^ 16

def ipText (n : ℕ) : String :=
  toString (n / 2 ^ 24) ++ "." ++ toString (n / 2 ^ 16 % 256) ++ "." ++
    toString (n / 2 ^ 8 % 256) ++ "." ++ toString (n % 256)

def ip (offset : ℕ) : String := ipText (base + offset)

/-- The dictionary `self.nodes`: nodes under their ids. -/
structure Fabric where
  nodes : List Node
  nodup : (nodes.map Node.id).Nodup

def Fabric.ids (f : Fabric) : List String := sortStrings (f.nodes.map Node.id)

def pairIndex (a b : String) (ids : List String) : Except String ℕ :=
  if a ∉ ids ∨ b ∉ ids then .error "not in list"
  else
    let i := min (ids.idxOf a) (ids.idxOf b)
    let j := max (ids.idxOf a) (ids.idxOf b)
    if i = j then .error "self link" else .ok (i * (2 * ids.length - i - 1) / 2 + j - i)

structure Binding where
  index : ℕ
  interface : String
  cost : ℕ
  endpoints : List (String × String)
  deriving DecidableEq, Repr

def Fabric.binding (f : Fabric) (a b : String) : Except String Binding :=
  match pairIndex a b f.ids with
  | .error e => .error e
  | .ok k => .ok
    { index := k, interface := "sf" ++ toString k, cost := 1
      endpoints := (sortStrings [a, b]).zipIdx.map fun entry =>
        (entry.1, ip (4 * k + entry.2 + 1)) }

/-! ### Labels -/

def setLabel (labels : List (String × String)) (entry : String × String) : List (String × String) :=
  entry :: labels.filter fun other => other.1 ≠ entry.1

def relabel (index count : ℕ) (labels : List (String × String)) : List (String × String) :=
  [("next_hop_scheme", "live-pair-v1"), ("next_hop_index", toString index),
    ("next_hop_nodes", toString count)].foldl setLabel
    (labels.filter fun entry => !("next_hop:".toList.isPrefixOf entry.1.toList))

/-- `LiveFabric.__init__`, as far as the labels are concerned. -/
def Fabric.live (f : Fabric) : Except String (List Node) :=
  if 255 < f.ids.length then
    .error "live address pool currently supports at most 255 nodes"
  else .ok (f.nodes.map fun node =>
    { node with labels := relabel (f.ids.idxOf node.id) f.ids.length node.labels })

section Labels

variable {labels : List (String × String)}

theorem lookup_filter_ne {key other : String} (h : key ≠ other) :
    (labels.filter fun entry => entry.1 ≠ other).lookup key = labels.lookup key := by
  induction labels with
  | nil => rfl
  | cons entry labels ih =>
    obtain ⟨name, value⟩ := entry
    by_cases hname : name = other
    · rw [filter_cons_of_neg (by simpa using hname), ih, lookup_cons]
      have hkey : (key == name) = false := by simpa [hname] using h
      rw [hkey]
    · rw [filter_cons_of_pos (by simpa using hname), lookup_cons, lookup_cons, ih]

theorem lookup_setLabel {entry : String × String} {key : String} :
    (setLabel labels entry).lookup key =
      if key = entry.1 then some entry.2 else labels.lookup key := by
  unfold setLabel
  rw [lookup_cons]
  split_ifs with hkey
  · rw [beq_iff_eq.mpr hkey]
  · rw [beq_eq_false_iff_ne.mpr hkey]
    exact lookup_filter_ne hkey

theorem isPrefixOf_next_hop (id : String) :
    "next_hop:".toList.isPrefixOf ("next_hop:" ++ id).toList = true := by
  rw [String.toList_append, isPrefixOf_iff_prefix]
  exact prefix_append _ _

/-- **The labels of a node.** No address is bound explicitly any more, and the position and the
number of nodes can be read. -/
theorem lookup_relabel (index count : ℕ) (labels : List (String × String)) :
    (∀ id, (relabel index count labels).lookup ("next_hop:" ++ id) = none) ∧
      (relabel index count labels).lookup "next_hop_scheme" = some "live-pair-v1" ∧
      (relabel index count labels).lookup "next_hop_index" = some (toString index) ∧
      (relabel index count labels).lookup "next_hop_nodes" = some (toString count) := by
  unfold relabel
  simp only [foldl_cons, foldl_nil, lookup_setLabel]
  refine ⟨fun id => ?_, rfl, rfl, rfl⟩
  have hne : ∀ key : String, "next_hop:".toList.isPrefixOf key.toList = false →
      "next_hop:" ++ id ≠ key := by
    rintro key hkey rfl
    rw [isPrefixOf_next_hop] at hkey
    exact Bool.noConfusion hkey
  rw [if_neg (hne _ (by decide)), if_neg (hne _ (by decide)), if_neg (hne _ (by decide)),
    lookup_eq_none_iff]
  intro entry hentry
  have hkey := (mem_filter.mp hentry).2
  rw [Bool.not_eq_true'] at hkey
  exact bne_iff_ne.mpr (hne _ hkey)

end Labels

section Fabric

variable {f : Fabric} {a b : String}

theorem Fabric.mem_ids : a ∈ f.ids ↔ a ∈ f.nodes.map Node.id := mem_sortStrings

theorem Fabric.ids_sorted (f : Fabric) : f.ids.Pairwise (· < ·) := by
  have hle : f.ids.Pairwise (· ≤ ·) := pairwise_insertionSort _ _
  have hnodup : f.ids.Nodup := nodup_sortStrings.mpr f.nodup
  exact (hle.and hnodup).imp fun ⟨hle, hne⟩ => lt_of_le_of_ne hle hne

theorem Fabric.idxOf_lt (ha : a ∈ f.ids) (hb : b ∈ f.ids) (h : a < b) :
    f.ids.idxOf a < f.ids.idxOf b ∧ f.ids.idxOf b < f.ids.length := by
  have hi := idxOf_lt_length_iff.mpr ha
  have hj := idxOf_lt_length_iff.mpr hb
  refine ⟨?_, hj⟩
  by_contra hle
  obtain heq | hlt := (not_lt.mp hle).eq_or_lt
  · exact h.ne ((idxOf_inj hb).mp heq).symm
  · have hsorted := pairwise_iff_getElem.mp f.ids_sorted _ _ hj hi hlt
    rw [getElem_idxOf, getElem_idxOf] at hsorted
    exact h.asymm hsorted

def Fabric.number (f : Fabric) (a b : String) : ℕ :=
  Triangle.number f.ids.length (f.ids.idxOf a) (f.ids.idxOf b)

theorem Fabric.binding_eq (ha : a ∈ f.ids) (hb : b ∈ f.ids) (h : a < b) :
    f.binding a b = f.binding b a ∧ f.binding a b = .ok
      { index := f.number a b, interface := "sf" ++ toString (f.number a b), cost := 1
        endpoints := [(a, ip (4 * f.number a b + 1)), (b, ip (4 * f.number a b + 2))] } := by
  obtain ⟨hlt, -⟩ := f.idxOf_lt ha hb h
  have hindex : pairIndex a b f.ids = .ok (f.number a b) := by
    unfold pairIndex
    rw [if_neg (by simp [ha, hb])]
    rw [min_eq_left hlt.le, max_eq_right hlt.le, if_neg hlt.ne]
    rfl
  have hindex' : pairIndex b a f.ids = .ok (f.number a b) := by
    unfold pairIndex
    rw [if_neg (by simp [ha, hb])]
    rw [min_eq_right hlt.le, max_eq_left hlt.le, if_neg hlt.ne]
    rfl
  have hsort : sortStrings [a, b] = [a, b] := by
    simp [sortStrings, h.le]
  have hsort' : sortStrings [b, a] = [a, b] := by
    simp [sortStrings, h.not_ge]
  unfold Fabric.binding
  rw [hindex, hindex', hsort, hsort']
  exact ⟨rfl, rfl⟩

end Fabric

section Controller

theorem atoi_toString : ∀ n : ℕ, n < 256 → atoi (toString n) = some (n : ℤ) := by
  decide +kernel

theorem cast_number {n i j : ℕ} (h : i < j) (hj : j < n) :
    (i : ℤ) * (2 * n - i - 1) / 2 + j - i = (Triangle.number n i j : ℤ) := by
  have hfactor : ((2 * n - i - 1 : ℕ) : ℤ) = 2 * n - i - 1 := by omega
  have hrow : ((i * (2 * n - i - 1) / 2 : ℕ) : ℤ) = (i : ℤ) * (2 * n - i - 1) / 2 := by
    rw [Int.natCast_ediv, Nat.cast_mul, hfactor]
    rfl
  unfold Triangle.number Triangle.start
  omega

variable {f : Fabric} {nodes : List Node} {a b : Node}

structure Labelled (f : Fabric) (node : Node) : Prop where
  mem : node.id ∈ f.ids
  bound : ∀ id, node.labels.lookup ("next_hop:" ++ id) = none
  scheme : node.label "next_hop_scheme" = "live-pair-v1"
  index : node.label "next_hop_index" = toString (f.ids.idxOf node.id)
  count : node.label "next_hop_nodes" = toString f.ids.length

theorem labelled_of_live (h : f.live = .ok nodes) (hmem : a ∈ nodes) :
    f.ids.length < 256 ∧ Labelled f a := by
  unfold Fabric.live at h
  split_ifs at h with hcount
  cases h
  obtain ⟨node, hnode, rfl⟩ := mem_map.mp hmem
  obtain ⟨hbound, hscheme, hindex, hnodes⟩ :=
    lookup_relabel (f.ids.idxOf node.id) f.ids.length node.labels
  refine ⟨by omega, Fabric.mem_ids.mpr (mem_map.mpr ⟨node, hnode, rfl⟩), hbound, ?_, ?_, ?_⟩
  · unfold Node.label
    rfl
  · unfold Node.label
    rfl
  · unfold Node.label
    rfl

theorem nextHopAddress_eq (ha : Labelled f a) : a.nextHopAddress b = a.livePairNextHop b := by
  unfold Node.nextHopAddress
  rw [ha.bound]
  rw [if_pos ha.scheme]

theorem dotted_toNat {pair : ℤ} {k host : ℕ} (hpair : pair = k) (hk : k < 2 ^ 15)
    (hhost : host < 4) :
    dotted [(0x0a800000 + 4 * pair + host).toNat % 2 ^ 32 / 2 ^ 24,
      (0x0a800000 + 4 * pair + host).toNat % 2 ^ 32 / 2 ^ 16 % 256,
      (0x0a800000 + 4 * pair + host).toNat % 2 ^ 32 / 2 ^ 8 % 256,
      (0x0a800000 + 4 * pair + host).toNat % 2 ^ 32 % 256] = ip (4 * k + host) := by
  have haddress : (0x0a800000 + 4 * pair + host).toNat % 2 ^ 32 = base + (4 * k + host) := by
    unfold base
    omega
  rw [haddress]
  rfl

theorem Fabric.number_lt (hcount : f.ids.length < 256) {x y : String} (hx : x ∈ f.ids)
    (hy : y ∈ f.ids) (h : x < y) : f.number x y < 2 ^ 15 := by
  obtain ⟨hlt, hlast⟩ := f.idxOf_lt hx hy h
  have hle : f.number x y ≤ f.ids.length * (f.ids.length - 1) / 2 := Triangle.number_le hlt hlast
  have hpairs : f.ids.length * (f.ids.length - 1) ≤ 255 * 254 :=
    Nat.mul_le_mul (by omega) (by omega)
  omega

theorem livePairNextHop_eq (hcount : f.ids.length < 256) (ha : Labelled f a) (hb : Labelled f b)
    (h : a.id < b.id) :
    a.livePairNextHop b = .ok (ip (4 * f.number a.id b.id + 2)) ∧
      b.livePairNextHop a = .ok (ip (4 * f.number a.id b.id + 1)) := by
  obtain ⟨hlt, hlast⟩ := f.idxOf_lt ha.mem hb.mem h
  have hnumber := cast_number hlt hlast
  have hsmall := Fabric.number_lt hcount ha.mem hb.mem h
  unfold Node.livePairNextHop
  rw [ha.count, ha.index, hb.index, hb.scheme, ha.scheme, hb.count,
    atoi_toString _ hcount, atoi_toString _ (by omega), atoi_toString _ (by omega)]
  dsimp only
  constructor
  · rw [if_neg, if_neg (by omega)]
    · exact congrArg _ (dotted_toNat hnumber hsmall (by decide))
    · simp only [ne_eq, not_true_eq_false, or_false]
      omega
  · rw [if_neg, if_pos (by omega)]
    · exact congrArg _ (dotted_toNat hnumber hsmall (by decide))
    · simp only [ne_eq, not_true_eq_false, or_false]
      omega

end Controller

/-! ### Agreement -/

def block (k : ℕ) : Finset ℕ := Finset.Ico (base + 4 * k) (base + 4 * k + 4)

def pool : Finset ℕ := Finset.Ico base (base + 2 ^ 17)

theorem disjoint_block {k k' : ℕ} (h : k ≠ k') : Disjoint (block k) (block k') := by
  rw [Finset.disjoint_left]
  intro x hx hx'
  unfold block at hx hx'
  rw [Finset.mem_Ico] at hx hx'
  omega

theorem block_subset_pool {k : ℕ} (h : k < 2 ^ 15) : block k ⊆ pool := by
  intro x hx
  unfold block at hx
  unfold pool
  rw [Finset.mem_Ico] at hx ⊢
  omega

section Agreement

variable {f : Fabric} {nodes : List Node}

/-- What holds of the addresses of two nodes: the fabric binds the two hosts of the /30 of the pair,
each to its own end, and the controller computes the address of the far end. -/
structure Agrees (f : Fabric) (a b : Node) (binding : Binding) (x y : ℕ) : Prop where
  binding_eq : f.binding a.id b.id = .ok binding
  near : binding.endpoints.lookup a.id = some (ipText x)
  far : binding.endpoints.lookup b.id = some (ipText y)
  forward : a.nextHopAddress b = .ok (ipText y)
  backward : b.nextHopAddress a = .ok (ipText x)
  hosts : ({x, y} : Finset ℕ) = {base + 4 * binding.index + 1, base + 4 * binding.index + 2}
  subset_pool : block binding.index ⊆ pool

theorem agrees_of_lt {a b : Node} (hcount : f.ids.length < 256) (ha : Labelled f a)
    (hb : Labelled f b) (h : a.id < b.id) :
    ∃ binding x y, Agrees f a b binding x y ∧ Agrees f b a binding y x := by
  obtain ⟨hswap, hbinding⟩ := Fabric.binding_eq ha.mem hb.mem h
  obtain ⟨hforward, hbackward⟩ := livePairNextHop_eq hcount ha hb h
  have hpool : block (f.number a.id b.id) ⊆ pool :=
    block_subset_pool (Fabric.number_lt hcount ha.mem hb.mem h)
  have hfar : List.lookup b.id [(a.id, ip (4 * f.number a.id b.id + 1)),
      (b.id, ip (4 * f.number a.id b.id + 2))] = some (ip (4 * f.number a.id b.id + 2)) := by
    rw [lookup_cons, beq_eq_false_iff_ne.mpr h.ne']
    exact lookup_cons_self
  refine ⟨_, base + (4 * f.number a.id b.id + 1), base + (4 * f.number a.id b.id + 2),
    ⟨hbinding, lookup_cons_self, hfar, ?_, ?_, rfl, hpool⟩,
    ⟨hswap ▸ hbinding, hfar, lookup_cons_self, ?_, ?_, Finset.pair_comm _ _, hpool⟩⟩
  · exact (nextHopAddress_eq ha).trans hforward
  · exact (nextHopAddress_eq hb).trans hbackward
  · exact (nextHopAddress_eq hb).trans hbackward
  · exact (nextHopAddress_eq ha).trans hforward

theorem exists_number {a b : String} {binding : Binding} (ha : a ∈ f.ids) (hb : b ∈ f.ids)
    (hne : a ≠ b) (h : f.binding a b = .ok binding) :
    ∃ u v, ({a, b} : Finset String) = {u, v} ∧ u ∈ f.ids ∧ v ∈ f.ids ∧ u < v ∧
      binding.index = f.number u v := by
  rcases lt_or_gt_of_ne hne with hlt | hgt
  · obtain ⟨-, hbinding⟩ := Fabric.binding_eq ha hb hlt
    obtain rfl := Except.ok.inj (h.symm.trans hbinding)
    exact ⟨a, b, rfl, ha, hb, hlt, rfl⟩
  · obtain ⟨hswap, hbinding⟩ := Fabric.binding_eq hb ha hgt
    obtain rfl := Except.ok.inj (h.symm.trans (hswap.symm.trans hbinding))
    exact ⟨b, a, Finset.pair_comm a b, hb, ha, hgt, rfl⟩

/-- **Contact addressing.** For any two nodes of a live fabric the controller and the fabric agree
on the addresses of the pair, which are the two hosts of one /30 of the pool, and the /30s of
different pairs have no address in common. -/
theorem live_addresses (h : f.live = .ok nodes) :
    (∀ a ∈ nodes, ∀ b ∈ nodes, a.id ≠ b.id → ∃ binding x y, Agrees f a b binding x y) ∧
      ∀ a ∈ nodes, ∀ b ∈ nodes, ∀ c ∈ nodes, ∀ d ∈ nodes, a.id ≠ b.id → c.id ≠ d.id →
        ({a.id, b.id} : Finset String) ≠ {c.id, d.id} →
        ∀ binding binding', f.binding a.id b.id = .ok binding →
          f.binding c.id d.id = .ok binding' →
          Disjoint (block binding.index) (block binding'.index) := by
  constructor
  · intro a ha b hb hne
    obtain ⟨hcount, ha⟩ := labelled_of_live h ha
    obtain ⟨-, hb⟩ := labelled_of_live h hb
    rcases lt_or_gt_of_ne hne with hlt | hgt
    · obtain ⟨binding, x, y, hagrees, -⟩ := agrees_of_lt hcount ha hb hlt
      exact ⟨binding, x, y, hagrees⟩
    · obtain ⟨binding, x, y, -, hagrees⟩ := agrees_of_lt hcount hb ha hgt
      exact ⟨binding, y, x, hagrees⟩
  · intro a ha b hb c hc d hd hab hcd hpairs binding binding' hbinding hbinding'
    have hmem : ∀ node ∈ nodes, node.id ∈ f.ids :=
      fun node hnode => (labelled_of_live h hnode).2.mem
    obtain ⟨u, v, huv, hu, hv, hlt, hindex⟩ := exists_number (hmem a ha) (hmem b hb) hab hbinding
    obtain ⟨u', v', huv', hu', hv', hlt', hindex'⟩ :=
      exists_number (hmem c hc) (hmem d hd) hcd hbinding'
    refine disjoint_block fun heq => hpairs ?_
    rw [hindex, hindex'] at heq
    obtain ⟨hi, hj⟩ := f.idxOf_lt hu hv hlt
    obtain ⟨hi', hj'⟩ := f.idxOf_lt hu' hv' hlt'
    obtain ⟨hfirst, hsecond⟩ := Triangle.number_inj hi hj hi' hj' heq
    rw [huv, huv', (idxOf_inj hu).mp hfirst, (idxOf_inj hv).mp hsecond]

end Agreement

def trio : Fabric where
  nodes := [{ id := "b" }, { id := "a", labels := [("next_hop:b", "10.0.0.1")] }, { id := "c" }]
  nodup := by decide

theorem live_addresses_trio : ∃ nodes, trio.live = .ok nodes ∧
    ∀ a ∈ nodes, ∀ b ∈ nodes, a.id ≠ b.id → ∃ binding x y, Agrees trio a b binding x y :=
  ⟨_, rfl, (live_addresses rfl).1⟩

/-- The address of `c`, as seen from `b`. -/
example : trio.binding "c" "b" = .ok
    { index := 3, interface := "sf3", cost := 1
      endpoints := [("b", "10.128.0.13"), ("c", "10.128.0.14")] } := by
  decide +kernel

end StarFabric.Live
