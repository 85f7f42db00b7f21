import StarFabric.Gribi.Entries
import StarFabric.Lib.Rollout
import StarFabric.Lib.Wire

/-!
# The operations between two sets of entries

`diffEntries` of `internal/adapter/openconfig/gribi.go`: first the next hops and groups that are new
or different, then the IP entries, then what is stale. The operations touch exactly the keys at
which the two tables differ (`mem_sequence_iff`), sorted by stage and key (`sequence_sorted`), and
lead from one table to the other (`run_operations`).
-/

namespace StarFabric.Gribi

open Go Edits Rollout List

/-! ### Keys -/

theorem toString_inj {a b : UInt64} (h : toString a = toString b) : a = b :=
  UInt64.toNat_inj.mp (Wire.toString_injective h)

theorem groupKey_inj {a b : UInt64} (h : groupKey a = groupKey b) : a = b :=
  toString_inj ((String.append_right_inj _).mp h)

theorem toList_ipKey (v4 : Bool) (p : String) : (ipKey v4 p).toList =
    ['i', 'p', 'v'] ++ (if v4 then ['4', '/'] else ['6', '/']) ++ p.toList := by
  unfold ipKey
  cases v4 <;> simp [String.toList_append]

theorem toList_groupKey (id : UInt64) :
    (groupKey id).toList = ['n', 'h', 'g', '/'] ++ (toString id).toList := by
  simp [groupKey, String.toList_append]

theorem toList_nextHopKey (index : UInt64) :
    (nextHopKey index).toList = ['n', 'h', '/'] ++ (toString index).toList := by
  simp [nextHopKey, String.toList_append]

theorem kind_eq_of_key_eq {a b : Entry} (h : a.key = b.key) : a.kind = b.kind := by
  have hlist := congrArg String.toList h
  -- the first characters of the keys differ
  cases a <;> cases b <;> first
    | rfl
    | simp [Entry.key, toList_ipKey, toList_groupKey, toList_nextHopKey] at hlist

/-! ### Operations -/

inductive OpKind where
  | add
  | replace
  | delete
  deriving DecidableEq, Repr

structure Operation where
  op : OpKind
  entry : Entry
  deriving DecidableEq, Repr

def Operation.edit (o : Operation) : Edit String (Option Entry) :=
  ⟨o.entry.key, if o.op = .delete then none else some o.entry⟩

def change (previous : List Entry) (e : Entry) : Option Operation :=
  match table previous e.key with
  -- an entry that is there already as desired needs no operation
  | none => some ⟨.add, e⟩
  | some prior => if prior = e then none else some ⟨.replace, e⟩

def deletions (previous desired : List Entry) (kind : Kind) : List Operation :=
  (previous.filter fun e => table desired e.key = none ∧ e.kind = kind).map (⟨.delete, ·⟩)

def diffEntries (previous desired : List Entry) : List (List Operation) :=
  [(desired.filter fun e => e.kind ≠ .ip).filterMap (change previous),
    (desired.filter fun e => e.kind = .ip).filterMap (change previous),
    deletions previous desired .ip,
    deletions previous desired .nextHopGroup,
    deletions previous desired .nextHop]

def operations (previous desired : List Entry) : List Operation :=
  (diffEntries previous desired).flatten

def sequence (previous desired : List Entry) : List String :=
  (operations previous desired).map fun o => o.entry.key

/-! ### The order of the operations -/

/-- The stage at which an entry of a kind is set. Next hops come before groups in their stage. -/
def Kind.setPhase : Kind → ℕ
  | nextHop => 0
  | nextHopGroup => 1
  | ip => 2

def Kind.deletePhase : Kind → ℕ
  | ip => 3
  | nextHopGroup => 4
  | nextHop => 5

def phase (previous desired : List Entry) (k : String) : ℕ :=
  match table desired k with
  | some e => e.kind.setPhase
  | none =>
    match table previous k with
    | some e => e.kind.deletePhase
    | none => 6

/-- A key is changed at an earlier stage, or at the same one and has the smaller text. -/
def Earlier (previous desired : List Entry) (a b : String) : Prop :=
  phase previous desired a < phase previous desired b ∨
    phase previous desired a = phase previous desired b ∧ a < b

/-- Sorted entries with unique keys, as `deduplicateEntries` returns them. -/
structure Tidy (entries : List Entry) : Prop where
  nodup : (entries.map Entry.key).Nodup
  sorted : entries.Pairwise fun a b => Entry.less b a = false

section Order

variable {previous desired : List Entry} {e : Entry} {k : String}

theorem Earlier.asymm (a b : String) (hab : Earlier previous desired a b) :
    ¬ Earlier previous desired b a := by
  rintro (hlt | ⟨heq, hlt⟩)
  · rcases hab with hlt' | ⟨heq', -⟩
    · omega
    · omega
  · rcases hab with hlt' | ⟨-, hlt'⟩
    · omega
    · exact lt_asymm hlt hlt'

theorem earlier_iff_lt {a b : String} (h : phase previous desired a = phase previous desired b) :
    Earlier previous desired a b ↔ a < b := by
  unfold Earlier
  rw [h]
  constructor
  · rintro (hlt | ⟨-, hlt⟩)
    · exact absurd hlt (lt_irrefl _)
    · exact hlt
  · intro hlt
    exact .inr ⟨rfl, hlt⟩

theorem phase_of_desired (hdesired : Tidy desired) (he : e ∈ desired) :
    phase previous desired e.key = e.kind.setPhase := by
  unfold phase
  rw [(table_eq_some_iff hdesired.nodup).mpr ⟨he, rfl⟩]

theorem phase_of_stale (hprevious : Tidy previous) (he : e ∈ previous)
    (hstale : table desired e.key = none) : phase previous desired e.key = e.kind.deletePhase := by
  unfold phase
  rw [hstale, (table_eq_some_iff hprevious.nodup).mpr ⟨he, rfl⟩]

theorem Kind.toNat_injective : Function.Injective Kind.toNat := by
  intro a b h
  cases a <;> cases b <;> first | rfl | exact absurd h (by decide)

theorem lt_of_sorted {a b : Entry} (hsorted : Entry.less b a = false) (hkey : a.key ≠ b.key) :
    a.kind.toNat < b.kind.toNat ∨ a.kind = b.kind ∧ a.key < b.key := by
  unfold Entry.less at hsorted
  by_cases hkind : b.kind = a.kind
  · rw [if_neg (not_not.mpr hkind), decide_eq_false_iff_not, not_lt] at hsorted
    exact .inr ⟨hkind.symm, lt_of_le_of_ne hsorted hkey⟩
  · rw [if_pos hkind, decide_eq_false_iff_not, not_lt] at hsorted
    exact .inl (lt_of_le_of_ne hsorted fun heq => hkind (Kind.toNat_injective heq).symm)

theorem Tidy.pairwise (h : Tidy desired) : desired.Pairwise fun a b =>
    a.kind.toNat < b.kind.toNat ∨ a.kind = b.kind ∧ a.key < b.key := by
  have hne : desired.Pairwise fun a b => a.key ≠ b.key := pairwise_map.mp h.nodup
  exact (h.sorted.and hne).imp fun hab => lt_of_sorted hab.1 hab.2

theorem less_by_kind_key : LessBy Entry.less fun e => toLex (e.kind.toNat, e.key) := by
  intro a b
  unfold Entry.less
  rw [Prod.Lex.toLex_lt_toLex]
  by_cases hkind : a.kind = b.kind
  · rw [if_neg (not_not.mpr hkind), decide_eq_true_eq, hkind]
    constructor
    · intro hlt
      exact .inr ⟨rfl, hlt⟩
    · rintro (hlt | ⟨-, hlt⟩)
      · exact absurd hlt (lt_irrefl _)
      · exact hlt
  · rw [if_pos hkind, decide_eq_true_eq]
    refine ⟨.inl, fun h => h.elim id fun heq => absurd ?_ hkind⟩
    exact Kind.toNat_injective heq.1

theorem tidy_deduplicateEntries (input : List Entry) : Tidy (deduplicateEntries input) where
  nodup := nodup_keys_deduplicateEntries
  sorted := less_by_kind_key.pairwise_insertionSort _

theorem tidy_entriesForRoutes {lib : Library} {networkInstance : String}
    {routes : List RouteOperation} {entries : List Entry}
    (h : entriesForRoutes lib networkInstance routes = .ok entries) : Tidy entries := by
  rw [(entriesForRoutes_eq_ok_iff.mp h).2]
  exact tidy_deduplicateEntries _

theorem map_entry_filterMap_change (l : List Entry) :
    (l.filterMap (change previous)).map Operation.entry =
      l.filter fun e => table previous e.key ≠ some e := by
  induction l with
  | nil => rfl
  | cons e l ih =>
    unfold change at ih ⊢
    rw [filterMap_cons, filter_cons]
    cases hprior : table previous e.key with
    | none => simpa using ih
    | some prior =>
      by_cases heq : prior = e
      · simpa [heq] using ih
      · simpa [heq] using ih

def stageEntries (previous desired : List Entry) : List (List Entry) :=
  [(desired.filter fun e => e.kind ≠ .ip).filter fun e => table previous e.key ≠ some e,
    (desired.filter fun e => e.kind = .ip).filter fun e => table previous e.key ≠ some e,
    previous.filter fun e => table desired e.key = none ∧ e.kind = .ip,
    previous.filter fun e => table desired e.key = none ∧ e.kind = .nextHopGroup,
    previous.filter fun e => table desired e.key = none ∧ e.kind = .nextHop]

theorem map_entry_operations : (operations previous desired).map Operation.entry =
    (stageEntries previous desired).flatten := by
  have hdeletions : ∀ kind, (deletions previous desired kind).map Operation.entry =
      previous.filter fun e => table desired e.key = none ∧ e.kind = kind := by
    intro kind
    unfold deletions
    rw [map_map]
    exact map_id _
  unfold operations diffEntries stageEntries
  simp only [flatten_cons, flatten_nil, append_nil, map_append,
    map_entry_filterMap_change, hdeletions]

theorem sequence_eq :
    sequence previous desired = (stageEntries previous desired).flatten.map Entry.key := by
  rw [← map_entry_operations, map_map]
  rfl

theorem Earlier.of_phase {a b : String} {n : ℕ} (ha : phase previous desired a ≤ n)
    (hb : n < phase previous desired b) : Earlier previous desired a b :=
  .inl (Nat.lt_of_le_of_lt ha hb)

theorem Tidy.pairwise_earlier (hdesired : Tidy desired) {l : List Entry} (hl : l.Sublist desired) :
    l.Pairwise fun a b => Earlier previous desired a.key b.key := by
  refine (hdesired.pairwise.sublist hl).imp_of_mem fun {a b} ha hb hab => ?_
  unfold Earlier
  rw [phase_of_desired hdesired (hl.subset ha), phase_of_desired hdesired (hl.subset hb)]
  rcases hab with hkind | ⟨hkind, hkey⟩
  · refine .inl ?_
    cases ha' : a.kind <;> cases hb' : b.kind <;> rw [ha', hb'] at hkind <;>
      first | decide | exact absurd hkind (by decide)
  · exact .inr ⟨congrArg Kind.setPhase hkind, hkey⟩

theorem Tidy.pairwise_stale (hprevious : Tidy previous) (kind : Kind) :
    (previous.filter fun e => table desired e.key = none ∧ e.kind = kind).Pairwise fun a b =>
      Earlier previous desired a.key b.key := by
  refine (hprevious.pairwise.sublist filter_sublist).imp_of_mem fun {a b} ha hb hab => ?_
  rw [mem_filter, decide_eq_true_eq] at ha hb
  unfold Earlier
  rw [phase_of_stale hprevious ha.1 ha.2.1, phase_of_stale hprevious hb.1 hb.2.1, ha.2.2, hb.2.2]
  rcases hab with hkind | ⟨-, hkey⟩
  · rw [ha.2.2, hb.2.2] at hkind
    exact absurd hkind (lt_irrefl _)
  · exact .inr ⟨rfl, hkey⟩

theorem Tidy.phase_of_mem_set (hdesired : Tidy desired)
    (he : e ∈ (desired.filter fun e => e.kind ≠ .ip).filter fun e => table previous e.key ≠ some e)
    : phase previous desired e.key ≤ 1 := by
  have hmem := mem_filter.mp (mem_of_mem_filter he)
  rw [phase_of_desired hdesired hmem.1]
  have hkind : e.kind ≠ .ip := of_decide_eq_true hmem.2
  cases hk : e.kind with
  | nextHop => decide
  | nextHopGroup => decide
  | ip => exact absurd hk hkind

theorem Tidy.phase_of_mem_setIP (hdesired : Tidy desired)
    (he : e ∈ (desired.filter fun e => e.kind = .ip).filter fun e => table previous e.key ≠ some e)
    : phase previous desired e.key = 2 := by
  have hmem := mem_filter.mp (mem_of_mem_filter he)
  have hkind : e.kind = .ip := of_decide_eq_true hmem.2
  rw [phase_of_desired hdesired hmem.1, hkind]
  rfl

variable {kind : Kind}

theorem Tidy.phase_of_mem_stale (hprevious : Tidy previous)
    (he : e ∈ previous.filter fun e => table desired e.key = none ∧ e.kind = kind) :
    phase previous desired e.key = kind.deletePhase := by
  rw [mem_filter, decide_eq_true_eq] at he
  rw [phase_of_stale hprevious he.1 he.2.1, he.2.2]

theorem sequence_sorted (hprevious : Tidy previous) (hdesired : Tidy desired) :
    (sequence previous desired).Pairwise (Earlier previous desired) := by
  have hsub : ∀ p q : Entry → Bool, ((desired.filter p).filter q).Sublist desired :=
    fun p q => filter_sublist.trans filter_sublist
  rw [sequence_eq, pairwise_map, pairwise_flatten]
  constructor
  · -- within a stage
    intro l hl
    unfold stageEntries at hl
    simp only [mem_cons, not_mem_nil, or_false] at hl
    rcases hl with rfl | rfl | rfl | rfl | rfl
    · exact hdesired.pairwise_earlier (hsub _ _)
    · exact hdesired.pairwise_earlier (hsub _ _)
    · exact hprevious.pairwise_stale .ip
    · exact hprevious.pairwise_stale .nextHopGroup
    · exact hprevious.pairwise_stale .nextHop
  · -- between stages
    unfold stageEntries
    simp only [pairwise_cons, mem_cons, not_mem_nil, or_false, forall_eq_or_imp,
      forall_eq, IsEmpty.forall_iff, implies_true, List.Pairwise.nil, and_true]
    refine ⟨⟨fun a ha b hb => ?_, fun a ha b hb => ?_, fun a ha b hb => ?_, fun a ha b hb => ?_⟩,
      ⟨fun a ha b hb => ?_, fun a ha b hb => ?_, fun a ha b hb => ?_⟩,
      ⟨fun a ha b hb => ?_, fun a ha b hb => ?_⟩, fun a ha b hb => ?_⟩
    · exact .of_phase (hdesired.phase_of_mem_set ha)
        (by rw [hdesired.phase_of_mem_setIP hb]; decide)
    -- everything stale comes later than what is set, and by its kind
    iterate 3
      exact .of_phase (hdesired.phase_of_mem_set ha)
        (by rw [hprevious.phase_of_mem_stale hb]; decide)
    iterate 3
      exact .of_phase (hdesired.phase_of_mem_setIP ha).le
        (by rw [hprevious.phase_of_mem_stale hb]; decide)
    iterate 3
      exact .of_phase (hprevious.phase_of_mem_stale ha).le
        (by rw [hprevious.phase_of_mem_stale hb]; decide)

theorem Tidy.changed_of_mem_set (hdesired : Tidy desired) {p : Entry → Bool}
    (he : e ∈ (desired.filter p).filter fun e => table previous e.key ≠ some e) :
    table previous e.key ≠ table desired e.key := by
  rw [mem_filter, decide_eq_true_eq] at he
  rw [(table_eq_some_iff hdesired.nodup).mpr ⟨mem_of_mem_filter he.1, rfl⟩]
  exact he.2

theorem Tidy.changed_of_mem_stale (hprevious : Tidy previous)
    (he : e ∈ previous.filter fun e => table desired e.key = none ∧ e.kind = kind) :
    table previous e.key ≠ table desired e.key := by
  rw [mem_filter, decide_eq_true_eq] at he
  rw [he.2.1, (table_eq_some_iff hprevious.nodup).mpr ⟨he.1, rfl⟩]
  nofun

theorem mem_sequence_iff (hprevious : Tidy previous) (hdesired : Tidy desired) :
    k ∈ sequence previous desired ↔ table previous k ≠ table desired k := by
  rw [sequence_eq, mem_map]
  constructor
  · -- an operation is for an entry that differs, or for one that is stale
    rintro ⟨e, he, rfl⟩
    obtain ⟨l, hl, he⟩ := mem_flatten.mp he
    unfold stageEntries at hl
    simp only [mem_cons, not_mem_nil, or_false] at hl
    rcases hl with rfl | rfl | rfl | rfl | rfl
    · exact hdesired.changed_of_mem_set he
    · exact hdesired.changed_of_mem_set he
    · exact hprevious.changed_of_mem_stale he
    · exact hprevious.changed_of_mem_stale he
    · exact hprevious.changed_of_mem_stale he
  · intro hne
    unfold stageEntries
    simp only [flatten_cons, flatten_nil, append_nil, mem_append, mem_filter, decide_eq_true_eq]
    cases hd : table desired k with
    | some e =>
      obtain ⟨he, rfl⟩ := (table_eq_some_iff hdesired.nodup).mp hd
      rw [hd] at hne
      by_cases hkind : e.kind = .ip
      · exact ⟨e, .inr (.inl ⟨⟨he, hkind⟩, hne⟩), rfl⟩
      · exact ⟨e, .inl ⟨⟨he, hkind⟩, hne⟩, rfl⟩
    | none =>
      obtain ⟨e, hp⟩ := Option.ne_none_iff_exists'.mp (hd ▸ hne)
      obtain ⟨he, rfl⟩ := (table_eq_some_iff hprevious.nodup).mp hp
      refine ⟨e, ?_, rfl⟩
      cases hkind : e.kind with
      | ip => exact .inr (.inr (.inl ⟨he, hd, rfl⟩))
      | nextHopGroup => exact .inr (.inr (.inr (.inl ⟨he, hd, rfl⟩)))
      | nextHop => exact .inr (.inr (.inr (.inr ⟨he, hd, rfl⟩)))

theorem before_sequence_iff (hprevious : Tidy previous) (hdesired : Tidy desired) {a b : String}
    (ha : table previous a ≠ table desired a) (hb : table previous b ≠ table desired b)
    (hne : a ≠ b) : Before (sequence previous desired) a b ↔ Earlier previous desired a b :=
  before_iff (sequence_sorted hprevious hdesired) Earlier.asymm
    ((mem_sequence_iff hprevious hdesired).mpr ha)
    ((mem_sequence_iff hprevious hdesired).mpr hb) hne

variable {o : Operation}

theorem Tidy.edit_of_change (hdesired : Tidy desired) (he : e ∈ desired)
    (h : change previous e = some o) :
    o.edit = ⟨o.entry.key, table desired o.entry.key⟩ := by
  have htable : table desired e.key = some e := (table_eq_some_iff hdesired.nodup).mpr ⟨he, rfl⟩
  unfold change at h
  cases hprior : table previous e.key with
  | none =>
    rw [hprior] at h
    cases Option.some.inj h
    rw [htable]
    rfl
  | some prior =>
    rw [hprior] at h
    dsimp only at h
    split_ifs at h
    cases Option.some.inj h
    rw [htable]
    rfl

theorem edit_of_mem_deletions (h : o ∈ deletions previous desired kind) :
    o.edit = ⟨o.entry.key, table desired o.entry.key⟩ := by
  obtain ⟨e, he, rfl⟩ := mem_map.mp h
  have hstale : table desired e.key = none := (of_decide_eq_true (mem_filter.mp he).2).1
  rw [hstale]
  rfl

theorem edit_of_mem_operations (hdesired : Tidy desired) (h : o ∈ operations previous desired) :
    o.edit = ⟨o.entry.key, table desired o.entry.key⟩ := by
  have hset : ∀ p : Entry → Bool, o ∈ (desired.filter p).filterMap (change previous) →
      o.edit = ⟨o.entry.key, table desired o.entry.key⟩ := by
    intro p ho
    obtain ⟨e, he, hchange⟩ := mem_filterMap.mp ho
    exact hdesired.edit_of_change (mem_of_mem_filter he) hchange
  unfold operations diffEntries at h
  simp only [flatten_cons, flatten_nil, append_nil, mem_append] at h
  rcases h with h | h | h | h | h
  · exact hset _ h
  · exact hset _ h
  · exact edit_of_mem_deletions h
  · exact edit_of_mem_deletions h
  · exact edit_of_mem_deletions h

theorem run_operations (hdesired : Tidy desired) (n : ℕ) :
    run (table previous) (((operations previous desired).take n).map Operation.edit) =
      mix (table previous) (table desired) ((sequence previous desired).take n) := by
  -- an operation sets what the desired table has, so only its key matters
  have hedits : ((operations previous desired).take n).map Operation.edit =
      ((sequence previous desired).take n).map fun k => ⟨k, table desired k⟩ := by
    unfold sequence
    rw [← map_take, map_map]
    exact map_congr_left fun o ho => edit_of_mem_operations hdesired (mem_of_mem_take ho)
  rw [hedits, run_eq_mix]

/-- The operations lead to the desired table from any mixture of the two. -/
theorem run_operations_of_mixed (hprevious : Tidy previous) (hdesired : Tidy desired)
    {aft : String → Option Entry} (haft : ∀ k, aft k = table previous k ∨ aft k = table desired k) :
    run aft ((operations previous desired).map Operation.edit) = table desired := by
  have hedits : (operations previous desired).map Operation.edit =
      (sequence previous desired).map fun k => ⟨k, table desired k⟩ := by
    unfold sequence
    rw [map_map]
    exact map_congr_left fun o ho => edit_of_mem_operations hdesired ho
  rw [hedits, run_eq_mix]
  -- a key that is not touched has the same entry in both tables
  refine mix_eq_new fun k hk => ?_
  have hsame : table previous k = table desired k :=
    not_not.mp (mt (mem_sequence_iff hprevious hdesired).mpr hk)
  exact (haft k).elim (·.trans hsame) id

theorem run_all_operations (hprevious : Tidy previous) (hdesired : Tidy desired) :
    run (table previous) ((operations previous desired).map Operation.edit) = table desired :=
  run_operations_of_mixed hprevious hdesired fun _ => .inl rfl

end Order

end StarFabric.Gribi
