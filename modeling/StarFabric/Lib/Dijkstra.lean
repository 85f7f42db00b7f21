import StarFabric.Lib.Heap
import Mathlib.Data.Set.Insert

/-!
# Shortest paths with a lazy priority queue

Dijkstra's algorithm with a heap that cannot lower keys: a node is pushed again when its distance
improves, and an item that is out of date is skipped. Among edges that reach a node at one distance
the one with the least identifier is kept. Lengths are elements of a linear order with a top, and an
edge may refuse to be added (`Graph.Lawful`). `Inv` is the invariant of the search, and
`search_spec` and `backtrack_spec` are its results.
-/

namespace Dijkstra

open BinaryHeap Function List Option Prod

/-- A directed graph with path lengths in `D` and edge identifiers in `ι`. -/
structure Graph (N E D ι : Type) where
  edges : List E
  source : E → N
  target : E → N
  out : N → List E
  ident : E → ι
  zero : D
  extend : D → E → Option D

variable {N E D ι : Type}

namespace Graph

variable {g : Graph N E D ι}

/-! ### Walks -/

def IsWalk (g : Graph N E D ι) : N → List E → N → Prop
  | u, [], v => u = v
  | u, e :: es, v => e ∈ g.edges ∧ g.source e = u ∧ IsWalk g (g.target e) es v

def length (g : Graph N E D ι) : D → List E → Option D
  | d, [] => some d
  | d, e :: es => (g.extend d e).bind fun d' => length g d' es

def nodes (g : Graph N E D ι) (u : N) (es : List E) : List N := u :: es.map g.target

variable {es : List E}

theorem isWalk_append {u v : N} {fs : List E} :
    g.IsWalk u (es ++ fs) v ↔ ∃ w, g.IsWalk u es w ∧ g.IsWalk w fs v := by
  induction es generalizing u with
  | nil => exact ⟨fun h => ⟨u, rfl, h⟩, fun ⟨_, hu, h⟩ => hu ▸ h⟩
  | cons e es ih =>
    constructor
    · rintro ⟨he, hs, h⟩
      obtain ⟨w, hw, hw'⟩ := ih.mp h
      exact ⟨w, ⟨he, hs, hw⟩, hw'⟩
    · rintro ⟨w, ⟨he, hs, hw⟩, hw'⟩
      exact ⟨he, hs, ih.mpr ⟨w, hw, hw'⟩⟩

theorem length_append {d : D} {fs : List E} :
    g.length d (es ++ fs) = (g.length d es).bind fun d' => g.length d' fs := by
  induction es generalizing d with
  | nil => rfl
  | cons e es ih =>
    simp only [cons_append, length]
    cases g.extend d e with
    | none => rfl
    | some d' => exact ih

theorem IsWalk.mem_edges {u v : N} (h : g.IsWalk u es v) : ∀ e ∈ es, e ∈ g.edges := by
  induction es generalizing u with
  | nil => exact nofun
  | cons e es ih => exact forall_mem_cons.mpr ⟨h.1, ih h.2.2⟩

variable {g' : Graph N E D ι}

theorem IsWalk.mono (hsource : g'.source = g.source) (htarget : g'.target = g.target)
    (hedges : ∀ e ∈ g.edges, e ∈ g'.edges) {u v : N} (h : g.IsWalk u es v) : g'.IsWalk u es v := by
  induction es generalizing u with
  | nil => exact h
  | cons e es ih =>
    obtain ⟨he, rfl, h⟩ := h
    exact ⟨hedges e he, congrFun hsource e, htarget ▸ ih h⟩

theorem length_congr (hextend : g'.extend = g.extend) (d : D) (es : List E) :
    g'.length d es = g.length d es := by
  induction es generalizing d with
  | nil => rfl
  | cons e es ih =>
    rw [length, length, hextend]
    exact congrArg _ (funext ih)

end Graph

variable [LinearOrder D]

structure Graph.Lawful (g : Graph N E D ι) : Prop where
  mem_out : ∀ u e, e ∈ g.out u ↔ e ∈ g.edges ∧ g.source e = u
  lt_extend : ∀ e ∈ g.edges, ∀ d d', g.zero ≤ d → g.extend d e = some d' → d < d'
  extend_strictMono : ∀ e ∈ g.edges, ∀ d₁ d₂ d₂', g.zero ≤ d₁ → d₁ < d₂ →
    g.extend d₂ e = some d₂' → ∃ d₁', g.extend d₁ e = some d₁' ∧ d₁' < d₂'

namespace Graph

variable {g : Graph N E D ι}

variable {es : List E}

theorem Lawful.le_length (hg : g.Lawful) {d d' : D} (hes : ∀ e ∈ es, e ∈ g.edges) (hd : g.zero ≤ d)
    (h : g.length d es = some d') : d ≤ d' := by
  induction es generalizing d with
  | nil => exact (Option.some.inj h).le
  | cons e es ih =>
    obtain ⟨d₁, h₁, h₂⟩ := bind_eq_some_iff.mp h
    obtain ⟨he, hes⟩ := forall_mem_cons.mp hes
    have hlt := hg.lt_extend e he d d₁ hd h₁
    exact hlt.le.trans (ih hes (hd.trans hlt.le) h₂)

theorem Lawful.length_strictMono (hg : g.Lawful) {d₁ d₂ d₂' : D} (hes : ∀ e ∈ es, e ∈ g.edges)
    (hd : g.zero ≤ d₁) (hlt : d₁ < d₂) (h : g.length d₂ es = some d₂') :
    ∃ d₁', g.length d₁ es = some d₁' ∧ d₁' < d₂' := by
  induction es generalizing d₁ d₂ with
  | nil => exact ⟨d₁, rfl, hlt.trans_le (Option.some.inj h).le⟩
  | cons e es ih =>
    obtain ⟨c₂, hc₂, h₂⟩ := bind_eq_some_iff.mp h
    obtain ⟨he, hes⟩ := forall_mem_cons.mp hes
    obtain ⟨c₁, hc₁, hc⟩ := hg.extend_strictMono e he d₁ d₂ c₂ hd hlt hc₂
    have hzero := hd.trans (hg.lt_extend e he d₁ c₁ hd hc₁).le
    obtain ⟨d₁', h₁, hfin⟩ := ih hes hzero hc h₂
    exact ⟨d₁', bind_eq_some_iff.mpr ⟨c₁, hc₁, h₁⟩, hfin⟩

/-- **Shortest walks agree where they meet.** When no walk from `src` to `dst` is shorter than
`c`, the nodes that walks of length `c` have in common are as far along one as along the
other. -/
theorem Lawful.length_eq_of_shortest (hg : g.Lawful) {src v dst : N} {c d₁ d₂ : D}
    {as bs as' bs' : List E} (hleast : ∀ es len, g.IsWalk src es dst →
      g.length g.zero es = some len → c ≤ len)
    (has : g.IsWalk src as v) (hd₁ : g.length g.zero as = some d₁)
    (hbs : g.IsWalk v bs dst) (hc₁ : g.length d₁ bs = some c)
    (has' : g.IsWalk src as' v) (hd₂ : g.length g.zero as' = some d₂)
    (hbs' : g.IsWalk v bs' dst) (hc₂ : g.length d₂ bs' = some c) : d₁ = d₂ := by
  -- the nearer beginning followed by the other end would be shorter than `c`
  have hcross : ∀ {as bs d d'}, g.IsWalk src as v → g.length g.zero as = some d →
      g.IsWalk v bs dst → g.length d' bs = some c → ¬ d < d' := by
    intro as bs d d' has hd hbs hc hlt
    obtain ⟨len, hlen, hless⟩ :=
      hg.length_strictMono hbs.mem_edges (hg.le_length has.mem_edges le_rfl hd) hlt hc
    refine absurd hless (not_lt.mpr (hleast (as ++ bs) len ?_ ?_))
    · exact isWalk_append.mpr ⟨v, has, hbs⟩
    · rw [length_append, hd]
      exact hlen
  exact le_antisymm (not_lt.mp (hcross has' hd₂ hbs hc₁)) (not_lt.mp (hcross has hd₁ hbs' hc₂))

theorem Lawful.extend_mono (hg : g.Lawful) {e : E} (he : e ∈ g.edges) {d₁ d₂ d₂' : D}
    (hd : g.zero ≤ d₁) (hle : d₁ ≤ d₂) (h : g.extend d₂ e = some d₂') :
    ∃ d₁', g.extend d₁ e = some d₁' ∧ d₁' ≤ d₂' := by
  rcases hle.eq_or_lt with rfl | hlt
  · exact ⟨d₂', h, le_rfl⟩
  · obtain ⟨d₁', h₁, hlt'⟩ := hg.extend_strictMono e he d₁ d₂ d₂' hd hlt h
    exact ⟨d₁', h₁, hlt'.le⟩

end Graph

/-! ### Counting edges -/

open Classical in
noncomputable def remaining (edges : List E) (done : Set E) : ℕ :=
  edges.countP fun e => e ∉ done

theorem remaining_anti (edges : List E) {done done' : Set E} (h : done ⊆ done') :
    remaining edges done' ≤ remaining edges done := by
  classical
  refine countP_mono_left fun x _ hx => ?_
  simp only [decide_eq_true_eq] at hx ⊢
  exact fun hmem => hx (h hmem)

open Classical in
theorem remaining_cons (x : E) (edges : List E) (done : Set E) :
    remaining (x :: edges) done = remaining edges done + if x ∈ done then 0 else 1 := by
  rw [remaining, countP_cons, remaining]
  by_cases hx : x ∈ done
  · simp [hx]
  · simp [hx]

theorem remaining_insert_lt {edges : List E} {done : Set E} {e : E} (he : e ∈ edges)
    (hnew : e ∉ done) : remaining edges (insert e done) < remaining edges done := by
  classical
  induction edges with
  | nil => cases he
  | cons x l ih =>
    rw [remaining_cons, remaining_cons, Set.mem_insert_iff]
    by_cases hx : x = e
    · have hle := remaining_anti l (Set.subset_insert e done)
      rw [if_pos (.inl hx), if_neg (hx ▸ hnew)]
      omega
    · have hl := ih ((mem_cons.mp he).resolve_left (Ne.symm hx))
      simp only [hx, false_or]
      omega

/-! ### A rank for shortest walks -/

def AtLength (g : Graph N E D ι) (src dst : N) (c : D) (v : N) (d : D) : Prop :=
  ∃ as bs, g.IsWalk src as v ∧ g.length g.zero as = some d ∧ g.IsWalk v bs dst ∧
    g.length d bs = some c

/-- **Shortest walks never turn back on each other.** There is a rank of the nodes that every
edge of every shortest walk lowers. -/
theorem exists_rank {g : Graph N E D ι} (hg : g.Lawful) {src dst : N} {c : D}
    (hleast : ∀ es len, g.IsWalk src es dst → g.length g.zero es = some len → c ≤ len) :
    ∃ rank : N → ℕ, ∀ es, g.IsWalk src es dst → g.length g.zero es = some c →
      ∀ e ∈ es, rank (g.target e) < rank (g.source e) := by
  classical
  have hunique : ∀ {v d d'}, AtLength g src dst c v d → AtLength g src dst c v d' → d = d' := by
    rintro v d d' ⟨as, bs, has, hd, hbs, hc⟩ ⟨as', bs', has', hd', hbs', hc'⟩
    exact hg.length_eq_of_shortest hleast has hd hbs hc has' hd' hbs' hc'
  obtain ⟨depth, hdepth⟩ : ∃ depth : N → D, ∀ v d, AtLength g src dst c v d → depth v = d := by
    refine ⟨fun v => if h : ∃ d, AtLength g src dst c v d then h.choose else c, fun v d hd => ?_⟩
    have hex : ∃ d, AtLength g src dst c v d := ⟨d, hd⟩
    exact (dif_pos hex).trans (hunique hex.choose_spec hd)
  -- count the edges that lead further than the node
  refine ⟨fun v => remaining g.edges {f | ¬ depth v < depth (g.target f)},
    fun es hwalk hlen e he => ?_⟩
  obtain ⟨as, bs, rfl⟩ := append_of_mem he
  obtain ⟨v, has, hedge, rfl, hbs⟩ := Graph.isWalk_append.mp hwalk
  rw [Graph.length_append] at hlen
  obtain ⟨d, hd, hrest⟩ := bind_eq_some_iff.mp hlen
  obtain ⟨d', hext, hlen'⟩ := bind_eq_some_iff.mp hrest
  have hsource : depth (g.source e) = d :=
    hdepth _ d ⟨as, e :: bs, has, hd, ⟨hedge, rfl, hbs⟩, hrest⟩
  have htarget : depth (g.target e) = d' := by
    refine hdepth _ d' ⟨as ++ [e], bs, ?_, ?_, hbs, hlen'⟩
    · exact Graph.isWalk_append.mpr ⟨_, has, hedge, rfl, rfl⟩
    · rw [Graph.length_append, hd]
      simp [Graph.length, hext]
  have hlt : depth (g.source e) < depth (g.target e) := by
    rw [hsource, htarget]
    exact hg.lt_extend e hedge d d' (hg.le_length has.mem_edges le_rfl hd) hext
  refine lt_of_le_of_lt (remaining_anti g.edges (Set.insert_subset (lt_irrefl _) ?_))
    (remaining_insert_lt hedge fun h => h hlt)
  exact fun f hf h => hf (hlt.trans h)

/-! ### The invariant -/

structure State (N E D : Type) where
  dist : N → D
  prev : N → Option E
  queue : Array (N × D)

section Improve

variable [DecidableEq N] {g : Graph N E D ι} {s : State N E D} {e : E} {d' : D} {v : N}

/-- The edge becomes the predecessor of its target, which is at distance `d'` now. -/
def improve (g : Graph N E D ι) (s : State N E D) (e : E) (d' : D) : State N E D where
  dist := update s.dist (g.target e) d'
  prev := update s.prev (g.target e) (some e)
  queue := push snd s.queue (g.target e, d')

@[simp] theorem improve_dist_self : (improve g s e d').dist (g.target e) = d' :=
  update_self ..

@[simp] theorem improve_dist_of_ne (hv : v ≠ g.target e) :
    (improve g s e d').dist v = s.dist v := update_of_ne hv ..

@[simp] theorem improve_prev_self : (improve g s e d').prev (g.target e) = some e :=
  update_self ..

@[simp] theorem improve_prev_of_ne (hv : v ≠ g.target e) :
    (improve g s e d').prev v = s.prev v := update_of_ne hv ..

theorem mem_improve_queue (hheap : Ordered snd s.queue) (item : N × D) :
    item ∈ (improve g s e d').queue ↔ item = (g.target e, d') ∨ item ∈ s.queue := by
  have hperm := (push_spec hheap (g.target e, d')).2
  rw [← Array.mem_toList_iff, improve, hperm.mem_iff, mem_cons, Array.mem_toList_iff]

theorem size_improve_queue (hheap : Ordered snd s.queue) :
    (improve g s e d').queue.size = s.queue.size + 1 := by
  have hlen := (push_spec hheap (g.target e, d')).2.length_eq
  rwa [length_cons, Array.length_toList, Array.length_toList] at hlen

end Improve

variable [LinearOrder ι]

def Relaxed (g : Graph N E D ι) (s : State N E D) (e : E) : Prop :=
  ∀ d', g.extend (s.dist (g.source e)) e = some d' →
    s.dist (g.target e) < d' ∨
      (s.dist (g.target e) = d' ∧ ∀ p ∈ s.prev (g.target e), g.ident p ≤ g.ident e)

/-- The length `d'` is less than the distance of the edge's target, or it is the same and
the edge comes first. -/
def Improves (g : Graph N E D ι) (s : State N E D) (e : E) (d' : D) : Prop :=
  d' < s.dist (g.target e) ∨
    (d' = s.dist (g.target e) ∧ ∃ p ∈ s.prev (g.target e), g.ident e < g.ident p)

instance (g : Graph N E D ι) (s : State N E D) (e : E) (d' : D) : Decidable (Improves g s e d') :=
  inferInstanceAs (Decidable (_ ∨ _))

section Improve

variable {g : Graph N E D ι} {s : State N E D} {e : E} {d' : D}

theorem not_improves_iff : ¬ Improves g s e d' ↔ s.dist (g.target e) < d' ∨
    (s.dist (g.target e) = d' ∧ ∀ p ∈ s.prev (g.target e), g.ident p ≤ g.ident e) := by
  constructor
  · intro h
    obtain ⟨hle, htie⟩ := not_or.mp h
    rcases (not_lt.mp hle).lt_or_eq with hlt | heq
    · exact .inl hlt
    · exact .inr ⟨heq, fun p hp => not_lt.mp fun hlt => htie ⟨heq.symm, p, hp, hlt⟩⟩
  · rintro (hlt | ⟨rfl, hmin⟩) (h | ⟨heq, p, hp, hid⟩)
    · exact lt_asymm hlt h
    · exact hlt.ne heq.symm
    · exact lt_irrefl _ h
    · exact absurd hid (not_lt.mpr (hmin p hp))

theorem Relaxed.improve [DecidableEq N] {f : E} (hf : Relaxed g s f)
    (hsrc : g.source f ≠ g.target e)
    (himp : Improves g s e d') : Relaxed g (improve g s e d') f := by
  intro d'' h
  rw [improve_dist_of_ne hsrc] at h
  by_cases htgt : g.target f = g.target e
  · rw [htgt, improve_dist_self, improve_prev_self]
    have hold := htgt ▸ hf d'' h
    rcases himp with hless | ⟨rfl, p, hp, hid⟩
    · exact .inl (hold.elim hless.trans fun h => h.1 ▸ hless)
    · refine hold.imp id fun ⟨h₁, h₂⟩ => ⟨h₁, fun q hq => ?_⟩
      cases hq
      exact hid.le.trans (h₂ p hp)
  · rw [improve_dist_of_ne htgt, improve_prev_of_ne htgt]
    exact hf d'' h

end Improve

variable [OrderTop D]

/-- The invariant of the search, with the expanded nodes `settled` and the relaxed edges
`done`. -/
structure Inv (g : Graph N E D ι) (src dst : N) (settled : Set N) (done : Set E)
    (s : State N E D) : Prop where
  heap : Ordered snd s.queue
  src_dist : s.dist src = g.zero
  zero_le : ∀ v, g.zero ≤ s.dist v
  tree : ∀ v e, s.prev v = some e → e ∈ g.edges ∧ g.target e = v ∧ g.source e ∈ settled ∧
    g.extend (s.dist (g.source e)) e = some (s.dist v)
  reached : ∀ v, s.dist v ≠ ⊤ → v = src ∨ (s.prev v).isSome
  queued : ∀ v, s.dist v ≠ ⊤ → v ∉ settled → (v, s.dist v) ∈ s.queue
  below : ∀ u ∈ settled, ∀ item ∈ s.queue, s.dist u ≤ item.2
  relaxed : ∀ e ∈ done, g.source e ∈ settled ∧ Relaxed g s e
  dst_open : dst ∉ settled

def Covered (g : Graph N E D ι) (settled : Set N) (done : Set E) : Prop :=
  ∀ e ∈ g.edges, g.source e ∈ settled → e ∈ done

noncomputable def work (g : Graph N E D ι) (done : Set E) (s : State N E D) : ℕ :=
  s.queue.size + remaining g.edges done

section Steps

variable {g : Graph N E D ι} {src dst u : N} {settled : Set N} {done : Set E}
  {s : State N E D} {d : D} {queue : Array (N × D)}

section

variable (hs : Inv g src dst settled done s) (hpop : pop snd s.queue = some ((u, d), queue))
include hs hpop

theorem mem_of_pop (item : N × D) : item ∈ s.queue ↔ item = (u, d) ∨ item ∈ queue := by
  have hperm := (pop_spec hs.heap hpop).2.1
  rw [← Array.mem_toList_iff, hperm.mem_iff, mem_cons, Array.mem_toList_iff]

theorem size_of_pop : s.queue.size = queue.size + 1 := by
  have hlen := (pop_spec hs.heap hpop).2.1.length_eq
  rwa [length_cons, Array.length_toList, Array.length_toList] at hlen

theorem Inv.skip (hstale : d ≠ s.dist u) :
    Inv g src dst settled done { s with queue := queue } where
  heap := (pop_spec hs.heap hpop).1
  src_dist := hs.src_dist
  zero_le := hs.zero_le
  tree := hs.tree
  reached := hs.reached
  queued v hv hopen := by
    rcases (mem_of_pop hs hpop _).mp (hs.queued v hv hopen) with heq | hmem
    · obtain ⟨rfl, hd⟩ := Prod.mk.inj heq
      exact absurd hd.symm hstale
    · exact hmem
  below w hw item hitem := hs.below w hw item ((mem_of_pop hs hpop item).mpr (.inr hitem))
  relaxed := hs.relaxed
  dst_open := hs.dst_open

theorem Inv.settle (hd : d = s.dist u) (hu : u ≠ dst) :
    Inv g src dst (insert u settled) done { s with queue := queue } ∧
      ∀ w ∈ insert u settled, s.dist w ≤ d := by
  obtain ⟨hheap, -, hmin⟩ := pop_spec hs.heap hpop
  have hmem := mem_of_pop hs hpop
  refine ⟨⟨hheap, hs.src_dist, hs.zero_le, fun v e he => ?_, hs.reached, fun v hv hopen => ?_,
    fun w hw item hitem => ?_, fun e he => ?_, ?_⟩, fun w hw => ?_⟩
  · obtain ⟨h₁, h₂, h₃, h₄⟩ := hs.tree v e he
    exact ⟨h₁, h₂, Set.mem_insert_of_mem u h₃, h₄⟩
  · rw [Set.mem_insert_iff, not_or] at hopen
    rcases (hmem _).mp (hs.queued v hv hopen.2) with heq | hmem'
    · exact absurd (Prod.mk.inj heq).1 hopen.1
    · exact hmem'
  · rcases Set.mem_insert_iff.mp hw with rfl | hw
    · exact hd ▸ hmin item ((hmem item).mpr (.inr hitem))
    · exact hs.below w hw item ((hmem item).mpr (.inr hitem))
  · exact ⟨Set.mem_insert_of_mem u (hs.relaxed e he).1, (hs.relaxed e he).2⟩
  · rw [Set.mem_insert_iff, not_or]
    exact ⟨Ne.symm hu, hs.dst_open⟩
  · rcases Set.mem_insert_iff.mp hw with rfl | hw
    · exact hd.symm.le
    · exact hs.below w hw (u, d) ((hmem _).mpr (.inl rfl))

end

theorem Inv.target_open (hg : g.Lawful) (hs : Inv g src dst settled done s)
    (hd : g.zero ≤ d) (hmax : ∀ w ∈ settled, s.dist w ≤ d) {e : E} (he : e ∈ g.edges) {d' : D}
    (hext : g.extend d e = some d') (hle : d' ≤ s.dist (g.target e)) :
    d < d' ∧ g.target e ∉ settled ∧ g.target e ≠ src := by
  have hlt := hg.lt_extend e he d d' hd hext
  refine ⟨hlt, fun hmem => ?_, fun heq => ?_⟩
  · exact absurd (hlt.trans_le hle) (not_lt.mpr (hmax _ hmem))
  · rw [heq, hs.src_dist] at hle
    exact absurd (hlt.trans_le hle) (not_lt.mpr hd)

end Steps

/-! ### The search -/

variable [DecidableEq N]

/-- One round of the inner loop, for an edge out of a node at distance `d`. -/
def relax (g : Graph N E D ι) (d : D) (s : State N E D) (e : E) : State N E D :=
  match g.extend d e with
  | none => s
  | some d' => if Improves g s e d' then improve g s e d' else s

def loop (g : Graph N E D ι) (dst : N) : ℕ → State N E D → State N E D
  | 0, s => s
  | fuel + 1, s =>
    match pop snd s.queue with
    | none => s
    | some ((u, d), queue) =>
      if d ≠ s.dist u then loop g dst fuel { s with queue := queue }
      else if u = dst then s
      else loop g dst fuel ((g.out u).foldl (relax g d) { s with queue := queue })

def start (g : Graph N E D ι) (src : N) : State N E D where
  dist := update (fun _ => ⊤) src g.zero
  prev := fun _ => none
  queue := #[(src, g.zero)]

def search (g : Graph N E D ι) (src dst : N) : State N E D :=
  loop g dst (g.edges.length + 1) (start g src)

/-- The edges from `v` back to `src` along the predecessors, last edge first. -/
def backtrack (g : Graph N E D ι) (prev : N → Option E) (src : N) : ℕ → N → Option (List E)
  | fuel, v =>
    if v = src then some []
    else match fuel, prev v with
      | fuel + 1, some e => (backtrack g prev src fuel (g.source e)).map (e :: ·)
      | _, _ => none

/-! ### The list of edges

The search follows `out`. Of the list of all edges it takes no more than the length. -/

section Edges

variable (g : Graph N E D ι) (edges : List E)

omit [OrderTop D] in
theorem loop_with_edges (dst : N) (fuel : ℕ) (s : State N E D) :
    loop { g with edges := edges } dst fuel s = loop g dst fuel s := by
  induction fuel generalizing s with
  | zero => rfl
  | succ fuel ih =>
    unfold loop
    cases pop snd s.queue with
    | none => rfl
    | some item =>
      simp only [ih]
      rfl

theorem search_with_edges (hlength : edges.length = g.edges.length) (src dst : N) :
    search { g with edges := edges } src dst = search g src dst := by
  unfold search
  rw [loop_with_edges, hlength]
  rfl

omit [LinearOrder D] [LinearOrder ι] [OrderTop D] in
theorem backtrack_with_edges (prev : N → Option E) (src : N) (fuel : ℕ) (v : N) :
    backtrack { g with edges := edges } prev src fuel v = backtrack g prev src fuel v := by
  induction fuel generalizing v with
  | zero =>
    rfl
  | succ fuel ih =>
    unfold backtrack
    split_ifs
    · rfl
    · cases prev v with
      | none => rfl
      | some e =>
        dsimp only
        rw [ih]

end Edges

section Search

variable {g : Graph N E D ι} {src dst u v : N} {settled : Set N} {done : Set E}
  {s : State N E D} {d d' : D} {e : E}

section

variable (hg : g.Lawful) (hs : Inv g src dst settled done s)
include hg hs

theorem Inv.improve (hmax : ∀ w ∈ settled, s.dist w ≤ s.dist (g.source e)) (he : e ∈ g.edges)
    (hsrc : g.source e ∈ settled) (hext : g.extend (s.dist (g.source e)) e = some d')
    (himp : Improves g s e d') :
    Inv g src dst settled (insert e done) (Dijkstra.improve g s e d') ∧
      ∀ w ∈ settled, (Dijkstra.improve g s e d').dist w = s.dist w := by
  have hle : d' ≤ s.dist (g.target e) := himp.elim le_of_lt fun h => h.1.le
  obtain ⟨hlt, hopen, hne⟩ := hs.target_open hg (hs.zero_le _) hmax he hext hle
  have hfar : ∀ w ∈ settled, w ≠ g.target e := fun w hw h => hopen (h ▸ hw)
  have hkeep : ∀ w ∈ settled, (Dijkstra.improve g s e d').dist w = s.dist w :=
    fun w hw => improve_dist_of_ne (hfar w hw)
  refine ⟨⟨(push_spec hs.heap _).1, ?_, fun v => ?_, fun v f hf => ?_, fun v hv => ?_,
    fun v hv hv' => ?_, fun w hw item hitem => ?_, fun f hf => ?_, hs.dst_open⟩, hkeep⟩
  · rw [improve_dist_of_ne hne.symm, hs.src_dist]
  · by_cases hv : v = g.target e
    · rw [hv, improve_dist_self]
      exact (hs.zero_le _).trans hlt.le
    · rw [improve_dist_of_ne hv]
      exact hs.zero_le v
  · by_cases hv : v = g.target e
    · subst hv
      rw [improve_prev_self] at hf
      cases hf
      exact ⟨he, rfl, hsrc, by rw [hkeep _ hsrc, hext, improve_dist_self]⟩
    · rw [improve_prev_of_ne hv] at hf
      obtain ⟨h₁, h₂, h₃, h₄⟩ := hs.tree v f hf
      exact ⟨h₁, h₂, h₃, by rw [hkeep _ h₃, h₄, improve_dist_of_ne hv]⟩
  · by_cases hvt : v = g.target e
    · exact .inr (by rw [hvt, improve_prev_self]; rfl)
    · rw [improve_dist_of_ne hvt] at hv
      rw [improve_prev_of_ne hvt]
      exact hs.reached v hv
  · rw [mem_improve_queue hs.heap]
    by_cases hvt : v = g.target e
    · exact .inl (by rw [hvt, improve_dist_self])
    · rw [improve_dist_of_ne hvt] at hv ⊢
      exact .inr (hs.queued v hv hv')
  · rw [hkeep w hw]
    rcases (mem_improve_queue hs.heap _).mp hitem with rfl | hitem
    · exact (hmax w hw).trans hlt.le
    · exact hs.below w hw item hitem
  · rcases Set.mem_insert_iff.mp hf with rfl | hf
    · refine ⟨hsrc, fun d'' h => .inr ?_⟩
      rw [hkeep _ hsrc, hext] at h
      cases h
      rw [improve_dist_self, improve_prev_self]
      exact ⟨rfl, fun p hp => by cases hp; exact le_rfl⟩
    · obtain ⟨hfs, hrel⟩ := hs.relaxed f hf
      exact ⟨hfs, hrel.improve (hfar _ hfs) himp⟩

/-- **One edge.** The invariant is kept, the distances of expanded nodes do not change, and
no work is added: an edge pushes an item only the first time it is relaxed. -/
theorem Inv.relax (hu : u ∈ settled) (hd : s.dist u = d) (hmax : ∀ w ∈ settled, s.dist w ≤ d)
    (he : e ∈ g.out u) :
    Inv g src dst settled (insert e done) (Dijkstra.relax g d s e) ∧
      (∀ w ∈ settled, (Dijkstra.relax g d s e).dist w = s.dist w) ∧
      work g (insert e done) (Dijkstra.relax g d s e) ≤ work g done s := by
  obtain ⟨hmem, rfl⟩ := (hg.mem_out u e).mp he
  subst hd
  by_cases himp : ∃ d', g.extend (s.dist (g.source e)) e = some d' ∧ Improves g s e d'
  · obtain ⟨d', hext, himp⟩ := himp
    have heq : Dijkstra.relax g (s.dist (g.source e)) s e = Dijkstra.improve g s e d' := by
      simp only [Dijkstra.relax, hext, if_pos himp]
    have hnew : e ∉ done := fun h => not_improves_iff.mpr ((hs.relaxed e h).2 d' hext) himp
    obtain ⟨hinv, hkeep⟩ := hs.improve hg hmax hmem hu hext himp
    rw [heq]
    refine ⟨hinv, hkeep, ?_⟩
    have hcount := remaining_insert_lt hmem hnew
    rw [work, work, size_improve_queue hs.heap]
    omega
  · have heq : Dijkstra.relax g (s.dist (g.source e)) s e = s := by
      unfold Dijkstra.relax
      cases hext : g.extend (s.dist (g.source e)) e with
      | none => rfl
      | some d' => exact if_neg fun h => himp ⟨d', hext, h⟩
    rw [heq]
    refine ⟨{ hs with relaxed := fun f hf => ?_ }, fun _ _ => rfl, ?_⟩
    · rcases Set.mem_insert_iff.mp hf with rfl | hf
      · exact ⟨hu, fun d' hext => not_improves_iff.mp fun h => himp ⟨d', hext, h⟩⟩
      · exact hs.relaxed f hf
    · exact Nat.add_le_add_left (remaining_anti _ (Set.subset_insert e done)) _

theorem Inv.relaxAll (hu : u ∈ settled) (hd : s.dist u = d) (hmax : ∀ w ∈ settled, s.dist w ≤ d)
    (es : List E) (hes : ∀ e ∈ es, e ∈ g.out u) :
    ∃ done', Inv g src dst settled done' (es.foldl (Dijkstra.relax g d) s) ∧
      (∀ e, e ∈ done ∨ e ∈ es → e ∈ done') ∧
      work g done' (es.foldl (Dijkstra.relax g d) s) ≤ work g done s := by
  induction es generalizing s done with
  | nil => exact ⟨done, hs, fun e he => he.resolve_right not_mem_nil, le_rfl⟩
  | cons e es ih =>
    obtain ⟨he, hes⟩ := forall_mem_cons.mp hes
    obtain ⟨hinv, hkeep, hwork⟩ := hs.relax hg hu hd hmax he
    obtain ⟨done', hinv', hdone, hwork'⟩ := ih hinv ((hkeep u hu).trans hd)
      (fun w hw => (hkeep w hw).trans_le (hmax w hw)) hes
    refine ⟨done', hinv', fun f hf => hdone f ?_, hwork'.trans hwork⟩
    rw [mem_cons] at hf
    rw [Set.mem_insert_iff]
    tauto

variable {fuel : ℕ}

/-- **The loop comes to its end.** When the rounds left are enough, no item of the heap is
nearer than the destination afterwards. -/
theorem loop_spec (hcov : Covered g settled done) (hfuel : work g done s ≤ fuel) :
    ∃ settled' done', Inv g src dst settled' done' (loop g dst fuel s) ∧
      Covered g settled' done' ∧
      ∀ item ∈ (loop g dst fuel s).queue, (loop g dst fuel s).dist dst ≤ item.2 := by
  induction fuel generalizing s settled done with
  | zero =>
    have hsize : s.queue.size = 0 := by
      unfold work at hfuel
      omega
    refine ⟨settled, done, hs, hcov, fun item hitem => ?_⟩
    rw [loop, Array.size_eq_zero_iff.mp hsize] at hitem
    exact absurd hitem (Array.not_mem_empty item)
  | succ fuel ih =>
    unfold loop
    cases hpop : pop snd s.queue with
    | none =>
      refine ⟨settled, done, hs, hcov, fun item hitem => ?_⟩
      rw [pop_eq_none_iff.mp hpop] at hitem
      exact absurd hitem (Array.not_mem_empty item)
    | some popped =>
      obtain ⟨⟨u, d⟩, queue⟩ := popped
      have hsize := size_of_pop hs hpop
      have hless : work g done { s with queue := queue } ≤ fuel := by
        unfold work at hfuel ⊢
        dsimp only
        omega
      dsimp only
      by_cases hstale : d ≠ s.dist u
      · rw [if_pos hstale]
        exact ih (hs.skip hpop hstale) hcov hless
      rw [if_neg hstale]
      have hd : d = s.dist u := not_not.mp hstale
      by_cases hu : u = dst
      · rw [if_pos hu]
        refine ⟨settled, done, hs, hcov, fun item hitem => ?_⟩
        rw [← hu, ← hd]
        exact (pop_spec hs.heap hpop).2.2 item hitem
      · rw [if_neg hu]
        obtain ⟨hinv, hmax⟩ := hs.settle hpop hd hu
        obtain ⟨done', hinv', hdone, hwork⟩ := hinv.relaxAll hg (Set.mem_insert u settled) hd.symm
          hmax (g.out u) fun _ he => he
        refine ih hinv' (fun e he hsrc => hdone e ?_) (hwork.trans hless)
        rcases Set.mem_insert_iff.mp hsrc with hsrc | hsrc
        · exact .inr ((hg.mem_out u e).mpr ⟨he, hsrc⟩)
        · exact .inl (hcov e he hsrc)

end

omit [LinearOrder ι] in
@[simp] theorem start_dist_self : (start g src).dist src = g.zero := by
  simp [start]

omit [LinearOrder ι] in
@[simp] theorem start_dist_of_ne (hv : v ≠ src) : (start g src).dist v = ⊤ := by
  simp [start, hv]

theorem inv_start (g : Graph N E D ι) (src dst : N) : Inv g src dst ∅ ∅ (start g src) where
  heap i hi := by
    have hlast : rank snd (start g src).queue i = ⊤ := by
      simp [rank, start, hi.ne']
    rw [hlast]
    exact le_top
  src_dist := start_dist_self
  zero_le v := by
    by_cases hv : v = src
    · rw [hv, start_dist_self]
    · rw [start_dist_of_ne hv]
      exact le_top
  tree _ _ h := nomatch h
  reached v hv := by
    by_cases h : v = src
    · exact .inl h
    · exact absurd (start_dist_of_ne h) hv
  queued v hv _ := by
    by_cases h : v = src
    · subst h
      rw [start_dist_self]
      exact Array.mem_singleton.mpr rfl
    · exact absurd (start_dist_of_ne h) hv
  below _ hu := absurd hu (Set.notMem_empty _)
  relaxed _ he := absurd he (Set.notMem_empty _)
  dst_open := Set.notMem_empty _

theorem search_spec (hg : g.Lawful) (src dst : N) :
    ∃ settled done, Inv g src dst settled done (search g src dst) ∧ Covered g settled done ∧
      ∀ item ∈ (search g src dst).queue, (search g src dst).dist dst ≤ item.2 := by
  refine loop_spec hg (inv_start g src dst) (fun _ _ h => absurd h (Set.notMem_empty _)) ?_
  have hlen : remaining g.edges ∅ ≤ g.edges.length := countP_le_length
  unfold work
  have hsize : (start g src).queue.size = 1 := rfl
  omega

/-! ### No walk is shorter -/

variable {es : List E}

omit [DecidableEq N] in
/-- Along a walk from the source every node is expanded at no larger a distance, or the
length has passed the bound `b` of all items in the heap. -/
theorem Inv.walk_cases (hg : g.Lawful) (hs : Inv g src dst settled done s)
    (hcov : Covered g settled done) {b : D} (hb : ∀ item ∈ s.queue, b ≤ item.2) {x : N} {dx len : D}
    (hx : g.zero ≤ dx) (hcase : (x ∈ settled ∧ s.dist x ≤ dx) ∨ b ≤ dx) (hwalk : g.IsWalk x es v)
    (hlen : g.length dx es = some len) :
    (v ∈ settled ∧ s.dist v ≤ len) ∨ b ≤ len := by
  induction es generalizing x dx with
  | nil =>
    cases hwalk
    cases hlen
    exact hcase
  | cons e es ih =>
    obtain ⟨he, rfl, hwalk⟩ := hwalk
    obtain ⟨dy, hext, hlen⟩ := bind_eq_some_iff.mp hlen
    have hlt := hg.lt_extend e he dx dy hx hext
    refine ih (hx.trans hlt.le) ?_ hwalk hlen
    rcases hcase with ⟨hset, hle⟩ | hle
    · obtain ⟨c, hc, hcle⟩ := hg.extend_mono he (hs.zero_le _) hle hext
      have hdist : s.dist (g.target e) ≤ c := by
        rcases (hs.relaxed e (hcov e he hset)).2 c hc with h | h
        · exact h.le
        · exact h.1.le
      by_cases htop : s.dist (g.target e) = ⊤
      · have hdy : dy = ⊤ := top_le_iff.mp (htop ▸ hdist.trans hcle)
        exact .inr (hdy ▸ le_top)
      by_cases hopen : g.target e ∈ settled
      · exact .inl ⟨hopen, hdist.trans hcle⟩
      · exact .inr ((hb _ (hs.queued _ htop hopen)).trans (hdist.trans hcle))
    · exact .inr (hle.trans hlt.le)

theorem search_dist_le (hg : g.Lawful) {len : D} (hwalk : g.IsWalk src es dst)
    (hlen : g.length g.zero es = some len) : (search g src dst).dist dst ≤ len := by
  obtain ⟨settled, done, hs, hcov, hb⟩ := search_spec hg src dst
  have hsrc : (src ∈ settled ∧ (search g src dst).dist src ≤ g.zero) ∨
      (search g src dst).dist dst ≤ g.zero := by
    by_cases hset : src ∈ settled
    · exact .inl ⟨hset, hs.src_dist.le⟩
    by_cases htop : (search g src dst).dist src = ⊤
    · have hzero : g.zero = ⊤ := hs.src_dist.symm.trans htop
      exact .inr (hzero ▸ le_top)
    · have := hb _ (hs.queued src htop hset)
      exact .inr (hs.src_dist ▸ this)
  rcases hs.walk_cases hg hcov hb le_rfl hsrc hwalk hlen with ⟨hset, -⟩ | hle
  · exact absurd hset hs.dst_open
  · exact hle

/-! ### Reading off the path -/

omit [DecidableEq N] in
theorem Inv.exists_prev (hg : g.Lawful) (hs : Inv g src dst settled done s)
    (hv : s.dist v ≠ ⊤) (hne : v ≠ src) :
    ∃ e, s.prev v = some e ∧ e ∈ g.edges ∧ g.target e = v ∧
      g.extend (s.dist (g.source e)) e = some (s.dist v) ∧ s.dist (g.source e) < s.dist v ∧
      remaining g.edges {f | s.dist (g.source e) < s.dist (g.target f)} <
        remaining g.edges {f | s.dist v < s.dist (g.target f)} := by
  obtain ⟨e, hprev⟩ := isSome_iff_exists.mp ((hs.reached v hv).resolve_left hne)
  obtain ⟨he, rfl, -, hext⟩ := hs.tree v e hprev
  have hlt := hg.lt_extend e he _ _ (hs.zero_le _) hext
  refine ⟨e, hprev, he, rfl, hext, hlt, ?_⟩
  -- the edge itself is counted at its target only
  refine lt_of_le_of_lt (remaining_anti g.edges (Set.insert_subset hlt ?_))
    (remaining_insert_lt he (lt_irrefl _))
  exact fun f hf => hlt.trans hf

/-- What is read off the predecessors of `v`: a walk as long as the distance of `v`, along
which distances rise. -/
theorem Inv.backtrack (hg : g.Lawful) (hs : Inv g src dst settled done s) (hv : s.dist v ≠ ⊤)
    (hfuel : remaining g.edges {e | s.dist v < s.dist (g.target e)} ≤ fuel) :
    ∃ es, Dijkstra.backtrack g s.prev src fuel v = some es.reverse ∧ g.IsWalk src es v ∧
      g.length g.zero es = some (s.dist v) ∧
      (g.nodes src es).Pairwise (fun a b => s.dist a < s.dist b) ∧
      ∀ w ∈ g.nodes src es, s.dist w ≤ s.dist v := by
  induction fuel using Nat.strong_induction_on generalizing v with
  | _ fuel ih =>
    unfold Dijkstra.backtrack
    by_cases hsrc : v = src
    · subst hsrc
      refine ⟨[], if_pos rfl, rfl, by rw [hs.src_dist]; rfl, pairwise_singleton .., ?_⟩
      exact fun w hw => mem_singleton.mp hw ▸ le_rfl
    rw [if_neg hsrc]
    obtain ⟨e, hprev, he, htgt, hext, hlt, hless⟩ := hs.exists_prev hg hv hsrc
    obtain ⟨fuel, rfl⟩ : ∃ k, fuel = k + 1 := ⟨fuel - 1, by omega⟩
    obtain ⟨es, hes, hwalk, hlen, hrise, hle⟩ :=
      ih fuel (Nat.lt_succ_self _) (hlt.trans_le le_top).ne (by omega)
    have hnodes : g.nodes src (es ++ [e]) = g.nodes src es ++ [v] := by simp [Graph.nodes, htgt]
    refine ⟨es ++ [e], ?_, ?_, ?_, ?_, fun w hw => ?_⟩
    · simp [hprev, hes]
    · exact Graph.isWalk_append.mpr ⟨_, hwalk, he, rfl, htgt⟩
    · rw [Graph.length_append, hlen]
      simp [Graph.length, hext]
    · rw [hnodes, pairwise_append]
      refine ⟨hrise, pairwise_singleton .., fun a ha b hb => ?_⟩
      rw [mem_singleton.mp hb]
      exact (hle a ha).trans_lt hlt
    · rw [hnodes, mem_append, mem_singleton] at hw
      rcases hw with hw | rfl
      · exact (hle w hw).trans hlt.le
      · exact le_rfl

/-- **The path found.** When the destination was reached, its predecessors are a simple walk
from the source, as long as the distance found. -/
theorem backtrack_spec (hg : g.Lawful) (h : (search g src dst).dist dst ≠ ⊤) :
    ∃ es, backtrack g (search g src dst).prev src g.edges.length dst = some es.reverse ∧
      g.IsWalk src es dst ∧ g.length g.zero es = some ((search g src dst).dist dst) ∧
      (g.nodes src es).Nodup := by
  obtain ⟨settled, done, hs, -, -⟩ := search_spec hg src dst
  obtain ⟨es, hes, hwalk, hlen, hrise, -⟩ := hs.backtrack hg h countP_le_length
  have hne : ∀ {a b : N}, (search g src dst).dist a < (search g src dst).dist b → a ≠ b :=
    fun hlt heq => lt_irrefl _ (heq ▸ hlt)
  exact ⟨es, hes, hwalk, hlen, hrise.imp hne⟩

end Search

end Dijkstra
