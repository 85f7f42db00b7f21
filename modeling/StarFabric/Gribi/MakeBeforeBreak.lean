import StarFabric.Gribi.Diff

/-!
# Make before break

Does the forwarding table keep its references while the operations of `diffEntries` are executed?
The stages take care of the references between entries of different kinds. A group also refers to
its backup group, and there the text of the hashed identifiers decides. So the references are kept
at every step exactly when these texts are in the right order (`Ordered`).
-/

namespace StarFabric.Gribi

open Go Edits Rollout List Option

/-! ### References -/

def Entry.Refers : Entry → String → Prop
  | .nextHop _ _, _ => False
  | .group _ nextHops backup, k =>
    (∃ index ∈ nextHops, k = nextHopKey index) ∨ ∃ id, backup = some id ∧ k = groupKey id
  | .ip _ _ id _, k => k = groupKey id

section References

variable {lib : Library} {networkInstance : String} {routes : List RouteOperation}
  {entries : List Entry} {e : Entry} {k : String}

variable (h : entriesForRoutes lib networkInstance routes = .ok entries)
include h

theorem entries_eq : entries = deduplicateEntries (rawEntries lib networkInstance routes) :=
  (entriesForRoutes_eq_ok_iff.mp h).2

theorem built_of_table (he : table entries k = some e) :
    e ∈ rawEntries lib networkInstance routes ∧ Built lib networkInstance routes e ∧ e.key = k := by
  obtain ⟨hmem, hkey⟩ := mem_of_lookup_mapBy he
  rw [entries_eq h] at hmem
  have hraw := mem_of_mem_deduplicateEntries hmem
  exact ⟨hraw, built_of_mem_rawEntries hraw, hkey⟩

theorem table_ne_none (he : e ∈ rawEntries lib networkInstance routes) :
    table entries e.key ≠ none := by
  rw [entries_eq h]
  exact fun hnone => table_eq_none_iff.mp hnone (key_mem_deduplicateEntries he)

theorem table_groupKey_ne_none {routePrefix : String} {role : Role}
    (hrole : HasRole routes routePrefix role) :
    table entries (groupKey (groupID lib networkInstance routePrefix role)) ≠ none :=
  table_ne_none h (groupEntry_mem lib networkInstance hrole)

theorem closed_table : Closed Entry.Refers (table entries) := by
  intro k e he r hr
  obtain ⟨hraw, hbuilt, -⟩ := built_of_table h he
  cases hbuilt with
  | nextHop route hroute => exact hr.elim
  | ip routePrefix role metadata hrole =>
    have hkey : r = groupKey (groupID lib networkInstance routePrefix role) := hr
    rw [hkey]
    exact table_groupKey_ne_none h hrole
  | group routePrefix role nextHops hrole =>
    rcases hr with ⟨index, hindex, rfl⟩ | ⟨id, hid, rfl⟩
    · obtain ⟨address, hmem⟩ := exists_nextHop_of_group hraw hindex
      exact table_ne_none h hmem
    · unfold backupOf at hid
      split_ifs at hid with hbackup
      cases Option.some.inj hid
      exact table_groupKey_ne_none h hbackup.2

end References

/-! ### Make before break -/

def CollisionFree (lib : Library) (networkInstance : String) (routes : List RouteOperation) :
    Prop :=
  ∀ p ∈ prefixes routes, ∀ p' ∈ prefixes routes, ∀ role role',
    groupID lib networkInstance p role = groupID lib networkInstance p' role' →
      p = p' ∧ role = role'

structure Safe (previous desired : List RouteOperation) (aft : String → Option Entry) : Prop where
  ip : ∀ k v4 p id metadata, aft k = some (.ip v4 p id metadata) → aft (groupKey id) ≠ none
  nextHops : ∀ k id nextHops backup, aft k = some (.group id nextHops backup) →
    ∀ index ∈ nextHops, aft (nextHopKey index) ≠ none
  backup : ∀ k id nextHops backup, aft k = some (.group id nextHops (some backup)) →
    aft (groupKey backup) ≠ none
  kept : ∀ p, p ∈ prefixes previous → p ∈ prefixes desired → aft (ipKey (isIPv4 p) p) ≠ none

/-- The texts of the identifiers are in the right order: a backup group that is new comes before its
primary one, and the groups of a prefix that goes away are deleted from the primary one on. -/
structure Ordered (lib : Library) (networkInstance : String)
    (previous desired : List RouteOperation) : Prop where
  added : ∀ p, HasRole desired p .primary → HasRole desired p .backup →
    ¬ HasRole previous p .backup →
    groupKey (groupID lib networkInstance p .backup) <
      groupKey (groupID lib networkInstance p .primary)
  removed : ∀ p, HasRole previous p .primary → HasRole previous p .backup →
    p ∉ prefixes desired →
    groupKey (groupID lib networkInstance p .primary) <
      groupKey (groupID lib networkInstance p .backup)

section MakeBeforeBreak

variable {lib : Library} {networkInstance : String} {previous desired : List RouteOperation}
  {old new : List Entry}

theorem safe_iff {aft : String → Option Entry} : Safe previous desired aft ↔
    Closed Entry.Refers aft ∧
      ∀ p, p ∈ prefixes previous → p ∈ prefixes desired → aft (ipKey (isIPv4 p) p) ≠ none := by
  constructor
  · rintro ⟨hip, hnextHops, hbackup, hkept⟩
    refine ⟨fun k e he r hr => ?_, hkept⟩
    cases e with
    | nextHop index address => exact hr.elim
    | group id nextHops backup =>
      rcases hr with ⟨index, hindex, rfl⟩ | ⟨id', rfl, rfl⟩
      · exact hnextHops k id nextHops backup he index hindex
      · exact hbackup k id nextHops id' he
    | ip v4 p id metadata =>
      have hkey : r = groupKey id := hr
      rw [hkey]
      exact hip k v4 p id metadata he
  · rintro ⟨hclosed, hkept⟩
    exact ⟨fun k v4 p id metadata he => hclosed k _ he _ rfl,
      fun k id nextHops backup he index hindex => hclosed k _ he _ (.inl ⟨index, hindex, rfl⟩),
      fun k id nextHops backup he => hclosed k _ he _ (.inr ⟨backup, rfl, rfl⟩), hkept⟩

/-! #### Groups by their key -/

variable {entries : List Entry} {e : Entry}

theorem kind_of_groupKey {id : UInt64} (he : table entries (groupKey id) = some e) :
    e.kind = .nextHopGroup := by
  have hkey : e.key = Entry.key (.group id [] none) := (mem_of_lookup_mapBy he).2
  exact kind_eq_of_key_eq hkey

theorem kind_of_nextHopKey {index : UInt64} (he : table entries (nextHopKey index) = some e) :
    e.kind = .nextHop := by
  have hkey : e.key = Entry.key (.nextHop index "") := (mem_of_lookup_mapBy he).2
  exact kind_eq_of_key_eq hkey

variable {p : String}

theorem mem_prefixes_append :
    p ∈ prefixes (previous ++ desired) ↔ p ∈ prefixes previous ∨ p ∈ prefixes desired := by
  simp only [mem_prefixes, mem_append, or_and_right, exists_or]

theorem group_of_table {all routes : List RouteOperation} {role : Role}
    (hfree : CollisionFree lib networkInstance all) (hall : ∀ q ∈ prefixes routes, q ∈ prefixes all)
    (hp : p ∈ prefixes all) (h : entriesForRoutes lib networkInstance routes = .ok entries)
    (he : table entries (groupKey (groupID lib networkInstance p role)) = some e) :
    HasRole routes p role ∧ ∃ nextHops, e = .group (groupID lib networkInstance p role) nextHops
      (backupOf lib networkInstance routes p role) := by
  have hkind := kind_of_groupKey he
  obtain ⟨-, hbuilt, hkey⟩ := built_of_table h he
  cases hbuilt with
  | nextHop route hroute => cases hkind
  | ip q role' metadata hrole => cases hkind
  | group q role' nextHops hrole =>
    obtain ⟨rfl, rfl⟩ := hfree q (hall q hrole.mem_prefixes) p hp role' role (groupKey_inj hkey)
    exact ⟨hrole, nextHops, rfl⟩

variable {k : String}

theorem backup_of_table {routes : List RouteOperation} {id backup : UInt64} {nextHops : List UInt64}
    (h : entriesForRoutes lib networkInstance routes = .ok entries)
    (he : table entries k = some (.group id nextHops (some backup))) :
    ∃ p, HasRole routes p .primary ∧ HasRole routes p .backup ∧
      k = groupKey (groupID lib networkInstance p .primary) ∧
      backup = groupID lib networkInstance p .backup := by
  obtain ⟨-, hbuilt, hkey⟩ := built_of_table h he
  generalize hb : some backup = b at hbuilt
  cases hbuilt with
  | group p role nextHops hrole =>
    unfold backupOf at hb
    split_ifs at hb with hboth
    obtain ⟨rfl, hbackup⟩ := hboth
    exact ⟨p, hrole, hbackup, hkey.symm, Option.some.inj hb⟩

theorem phase_of_table (h : table new k = some e) : phase old new k = e.kind.setPhase := by
  unfold phase
  rw [h]

theorem phase_of_table_none (hnew : table new k = none) (hold : table old k = some e) :
    phase old new k = e.kind.deletePhase := by
  unfold phase
  rw [hnew, hold]

theorem phase_of_old (h : table old k = some e) :
    phase old new k = e.kind.setPhase ∨
      table new k = none ∧ phase old new k = e.kind.deletePhase := by
  cases hnew : table new k with
  | some e' =>
    have hkey : e'.key = e.key := (mem_of_lookup_mapBy hnew).2.trans (mem_of_lookup_mapBy h).2.symm
    rw [phase_of_table hnew, kind_eq_of_key_eq hkey]
    exact .inl rfl
  | none => exact .inr ⟨rfl, phase_of_table_none hnew h⟩

/-! #### The two conditions -/

section Conditions

abbrev roleKey (lib : Library) (networkInstance p : String) (role : Role) : String :=
  groupKey (groupID lib networkInstance p role)

variable (hfree : CollisionFree lib networkInstance (previous ++ desired))
  (hold : entriesForRoutes lib networkInstance previous = .ok old)
  (hnew : entriesForRoutes lib networkInstance desired = .ok new)

include hfree

variable {p : String}

theorem primary_ne_backup (hp : p ∈ prefixes (previous ++ desired)) :
    roleKey lib networkInstance p .primary ≠ roleKey lib networkInstance p .backup := by
  intro heq
  exact absurd (hfree p hp p hp _ _ (groupKey_inj heq)).2 nofun

variable {role : Role} {e : Entry}

include hold in
theorem old_group (hp : p ∈ prefixes (previous ++ desired))
    (he : table old (roleKey lib networkInstance p role) = some e) :
    HasRole previous p role ∧ ∃ nextHops, e = .group (groupID lib networkInstance p role) nextHops
      (backupOf lib networkInstance previous p role) :=
  group_of_table hfree (fun _ hq => mem_prefixes_append.mpr (.inl hq)) hp hold he

include hnew in
theorem new_group (hp : p ∈ prefixes (previous ++ desired))
    (he : table new (roleKey lib networkInstance p role) = some e) :
    HasRole desired p role ∧ ∃ nextHops, e = .group (groupID lib networkInstance p role) nextHops
      (backupOf lib networkInstance desired p role) :=
  group_of_table hfree (fun _ hq => mem_prefixes_append.mpr (.inr hq)) hp hnew he

include hold hnew

theorem lt_of_added
    (hbefore : ∀ k e, table new k = some e → ∀ r, e.Refers r → table old r = none →
      Before (sequence old new) r k)
    (hprimary : HasRole desired p .primary) (hbackup : HasRole desired p .backup)
    (hnot : ¬ HasRole previous p .backup) :
    roleKey lib networkInstance p .backup < roleKey lib networkInstance p .primary := by
  have hp : p ∈ prefixes (previous ++ desired) :=
    mem_prefixes_append.mpr (.inr hprimary.mem_prefixes)
  obtain ⟨e, he⟩ := ne_none_iff_exists'.mp (table_groupKey_ne_none hnew hprimary)
  obtain ⟨e', he'⟩ := ne_none_iff_exists'.mp (table_groupKey_ne_none hnew hbackup)
  have hphase : phase old new (roleKey lib networkInstance p .backup) =
      phase old new (roleKey lib networkInstance p .primary) := by
    rw [phase_of_table he, phase_of_table he', kind_of_groupKey he, kind_of_groupKey he']
  obtain ⟨-, nextHops, rfl⟩ := new_group hfree hnew hp he
  have hbackupOf : backupOf lib networkInstance desired p .primary =
      some (groupID lib networkInstance p .backup) := if_pos ⟨rfl, hbackup⟩
  have hnone : table old (roleKey lib networkInstance p .backup) = none := by
    by_contra hne
    obtain ⟨e, he⟩ := ne_none_iff_exists'.mp hne
    exact hnot (old_group hfree hold hp he).1
  -- both groups are changed: the backup one is new, the primary one had no backup
  have hbackupNew : table old (roleKey lib networkInstance p .backup) ≠
      table new (roleKey lib networkInstance p .backup) := by
    rw [hnone, he']
    exact (some_ne_none e').symm
  have hprimaryNew : table old (roleKey lib networkInstance p .primary) ≠
      table new (roleKey lib networkInstance p .primary) := by
    intro hsame
    obtain ⟨-, nextHops', heq⟩ := old_group hfree hold hp (hsame.trans he)
    have hnoBackup : backupOf lib networkInstance previous p .primary = none :=
      if_neg fun h => hnot h.2
    have hb := (Entry.group.inj heq).2.2
    rw [hbackupOf, hnoBackup] at hb
    cases hb
  have hr := hbefore _ _ he _ (.inr ⟨_, hbackupOf, rfl⟩) hnone
  rw [before_sequence_iff (tidy_entriesForRoutes hold) (tidy_entriesForRoutes hnew) hbackupNew
    hprimaryNew (primary_ne_backup hfree hp).symm, earlier_iff_lt hphase] at hr
  exact hr

omit hfree in
theorem before_of_added (hordered : Ordered lib networkInstance previous desired)
    {k r : String} (he : table new k = some e) (hr : e.Refers r) (hnone : table old r = none) :
    Before (sequence old new) r k := by
  have htidyOld : Tidy old := tidy_entriesForRoutes hold
  have htidyNew : Tidy new := tidy_entriesForRoutes hnew
  by_cases hk : table old k = table new k
  · exact before_of_notMem fun hmem => (mem_sequence_iff htidyOld htidyNew).mp hmem hk
  by_cases hne : r = k
  · rw [hne]
    exact fun _ _ _ h => h
  have hrnew : table new r ≠ none := closed_table hnew k e he r hr
  have hrchanged : table old r ≠ table new r := by
    rw [hnone]
    exact hrnew.symm
  obtain ⟨e', he'⟩ := ne_none_iff_exists'.mp hrnew
  rw [before_sequence_iff htidyOld htidyNew hrchanged hk hne]
  cases e with
  | nextHop index address => exact hr.elim
  | ip v4 p id metadata =>
    -- groups are set in the stage before
    obtain rfl : r = groupKey id := hr
    refine .inl ?_
    rw [phase_of_table he, phase_of_table he', kind_of_groupKey he']
    exact Nat.lt_add_one 1
  | group id nextHops backup =>
    rcases hr with ⟨index, -, rfl⟩ | ⟨id', rfl, rfl⟩
    · refine .inl ?_
      rw [phase_of_table he, phase_of_table he', kind_of_nextHopKey he']
      exact Nat.lt_add_one 0
    · -- a backup group is set in the same stage, so its text must be smaller
      obtain ⟨p, hprimary, hbackup, rfl, rfl⟩ := backup_of_table hnew he
      refine .inr ⟨?_, hordered.added p hprimary hbackup fun hrole =>
        table_groupKey_ne_none hold hrole hnone⟩
      rw [phase_of_table he, phase_of_table he', kind_of_groupKey he']
      rfl

/-- If what refers to something that goes away is changed before it, then the primary group of a
prefix that goes away has the smaller text. -/
theorem lt_of_removed
    (hbefore : ∀ k e, table old k = some e → ∀ r, e.Refers r → table new r = none →
      Before (sequence old new) k r)
    (hprimary : HasRole previous p .primary) (hbackup : HasRole previous p .backup)
    (hgone : p ∉ prefixes desired) :
    roleKey lib networkInstance p .primary < roleKey lib networkInstance p .backup := by
  have hp : p ∈ prefixes (previous ++ desired) :=
    mem_prefixes_append.mpr (.inl hprimary.mem_prefixes)
  have hnone : ∀ role, table new (roleKey lib networkInstance p role) = none := by
    intro role
    by_contra hne
    obtain ⟨e, he⟩ := ne_none_iff_exists'.mp hne
    exact hgone (new_group hfree hnew hp he).1.mem_prefixes
  have hchanged : ∀ role, HasRole previous p role →
      table old (roleKey lib networkInstance p role) ≠
        table new (roleKey lib networkInstance p role) := by
    intro role hrole
    rw [hnone role]
    exact table_groupKey_ne_none hold hrole
  obtain ⟨e, he⟩ := ne_none_iff_exists'.mp (table_groupKey_ne_none hold hprimary)
  obtain ⟨e', he'⟩ := ne_none_iff_exists'.mp (table_groupKey_ne_none hold hbackup)
  have hphase : phase old new (roleKey lib networkInstance p .primary) =
      phase old new (roleKey lib networkInstance p .backup) := by
    rw [phase_of_table_none (hnone .primary) he, phase_of_table_none (hnone .backup) he',
      kind_of_groupKey he, kind_of_groupKey he']
  obtain ⟨-, nextHops, rfl⟩ := old_group hfree hold hp he
  have hbackupOf : backupOf lib networkInstance previous p .primary =
      some (groupID lib networkInstance p .backup) := if_pos ⟨rfl, hbackup⟩
  have hr := hbefore _ _ he _ (.inr ⟨_, hbackupOf, rfl⟩) (hnone .backup)
  rw [before_sequence_iff (tidy_entriesForRoutes hold) (tidy_entriesForRoutes hnew)
    (hchanged .primary hprimary) (hchanged .backup hbackup) (primary_ne_backup hfree hp),
    earlier_iff_lt hphase] at hr
  exact hr

omit hfree in
/-- If the primary group of a prefix that goes away has the smaller text, then what refers to
something that goes away is changed before it. -/
theorem before_of_removed (hordered : Ordered lib networkInstance previous desired)
    {k r : String} (he : table old k = some e) (hr : e.Refers r) (hnone : table new r = none) :
    Before (sequence old new) k r := by
  -- an entry that stays as it is cannot refer to what goes away
  have hk : table old k ≠ table new k := by
    intro hsame
    exact closed_table hnew k e (hsame.symm.trans he) r hr hnone
  by_cases hne : k = r
  · rw [hne]
    exact fun _ _ _ h => h
  have hrold : table old r ≠ none := closed_table hold k e he r hr
  have hrchanged : table old r ≠ table new r := by
    rw [hnone]
    exact hrold
  obtain ⟨e', he'⟩ := ne_none_iff_exists'.mp hrold
  rw [before_sequence_iff (tidy_entriesForRoutes hold) (tidy_entriesForRoutes hnew) hk hrchanged
    hne]
  unfold Earlier
  rw [phase_of_table_none hnone he']
  have hphase : phase old new k = e.kind.setPhase ∨
      table new k = none ∧ phase old new k = e.kind.deletePhase := phase_of_old he
  cases e with
  | nextHop index address => exact hr.elim
  | ip v4 p id metadata =>
    -- groups are deleted after IP entries
    obtain rfl : r = groupKey id := hr
    rw [kind_of_groupKey he']
    refine .inl ?_
    rcases hphase with hphase | ⟨-, hphase⟩ <;> rw [hphase]
    · exact (by decide : 2 < 4)
    · exact (by decide : 3 < 4)
  | group id nextHops backup =>
    rcases hr with ⟨index, -, rfl⟩ | ⟨id', rfl, rfl⟩
    · -- next hops are deleted last
      rw [kind_of_nextHopKey he']
      refine .inl ?_
      rcases hphase with hphase | ⟨-, hphase⟩ <;> rw [hphase]
      · exact (by decide : 1 < 5)
      · exact (by decide : 4 < 5)
    · obtain ⟨p, hprimary, hbackup, rfl, rfl⟩ := backup_of_table hold he
      rw [kind_of_groupKey he']
      rcases hphase with hphase | ⟨hknew, hphase⟩ <;> rw [hphase]
      · exact .inl (by decide : 1 < 4)
      · refine .inr ⟨rfl, hordered.removed p hprimary hbackup fun hgone => ?_⟩
        -- both roles are gone, so the prefix is
        obtain ⟨role, hrole⟩ := exists_hasRole hgone
        cases role with
        | primary => exact table_groupKey_ne_none hnew hrole hknew
        | backup => exact table_groupKey_ne_none hnew hrole hnone

/-- **Make before break.** The operations keep the forwarding table safe at every step if and only
if the identifiers of the groups are in the right order. -/
theorem diff_safe_iff :
    (∀ n, Safe previous desired
      (run (table old) (((operations old new).take n).map Operation.edit))) ↔
      Ordered lib networkInstance previous desired := by
  have htidyNew : Tidy new := tidy_entriesForRoutes hnew
  have hkept : ∀ changed p, p ∈ prefixes previous → p ∈ prefixes desired →
      mix (table old) (table new) changed (ipKey (isIPv4 p) p) ≠ none := by
    intro changed p hp hp'
    obtain ⟨id, metadata, hmem⟩ := exists_ipEntry lib networkInstance hp
    obtain ⟨id', metadata', hmem'⟩ := exists_ipEntry lib networkInstance hp'
    have hbefore : table old (ipKey (isIPv4 p) p) ≠ none := table_ne_none hold hmem
    have hafter : table new (ipKey (isIPv4 p) p) ≠ none := table_ne_none hnew hmem'
    exact mix_ne_none hbefore hafter changed
  have hclosed : (∀ n, Safe previous desired
      (run (table old) (((operations old new).take n).map Operation.edit))) ↔
      ∀ done rest, sequence old new = done ++ rest →
        Closed Entry.Refers (mix (table old) (table new) done) := by
    constructor
    · intro hsafe done rest hsplit
      have hdone := (safe_iff.mp (hsafe done.length)).1
      rw [run_operations htidyNew, hsplit, take_left] at hdone
      exact hdone
    · intro hclosed n
      rw [run_operations htidyNew]
      exact safe_iff.mpr ⟨hclosed _ _ (take_append_drop n _).symm, hkept _⟩
  rw [hclosed, closed_throughout_iff (closed_table hold) (closed_table hnew)]
  constructor
  · rintro ⟨hadded, hremoved⟩
    exact ⟨fun p => lt_of_added hfree hold hnew hadded,
      fun p => lt_of_removed hfree hold hnew hremoved⟩
  · intro hordered
    exact ⟨fun k e he r hr => before_of_added hold hnew hordered he hr,
      fun k e he r hr => before_of_removed hold hnew hordered he hr⟩

end Conditions

/-- **An `Apply` that was cut off can be repeated and taken back.** The operations change just the
keys at which the tables differ, each once. After any first part of them, all of them lead to the
desired table, and the operations of the way back lead to the previous one. -/
theorem apply_repeats_and_undoes (hold : entriesForRoutes lib networkInstance previous = .ok old)
    (hnew : entriesForRoutes lib networkInstance desired = .ok new) (n : ℕ) :
    (sequence old new).Nodup ∧ (∀ k, k ∈ sequence old new ↔ table old k ≠ table new k) ∧
      ∀ aft, aft = run (table old) (((operations old new).take n).map Operation.edit) →
        run aft ((operations old new).map Operation.edit) = table new ∧
          run aft ((operations new old).map Operation.edit) = table old := by
  have htidyOld := tidy_entriesForRoutes hold
  have htidyNew := tidy_entriesForRoutes hnew
  refine ⟨?_, fun k => mem_sequence_iff htidyOld htidyNew, fun aft haft => ?_⟩
  · refine (sequence_sorted htidyOld htidyNew).imp fun {a b} hab heq => ?_
    exact Earlier.asymm a b hab (heq ▸ heq ▸ hab)
  · have hmixed : ∀ k, aft k = table new k ∨ aft k = table old k := by
      intro k
      rw [haft, run_operations htidyNew]
      exact ite_eq_or_eq _ _ _
    exact ⟨run_operations_of_mixed htidyOld htidyNew fun k => (hmixed k).symm,
      run_operations_of_mixed htidyNew htidyOld hmixed⟩

end MakeBeforeBreak

/-! ### A prefix with both roles -/

/-- The digests of the identifiers of two next hops and of the groups of two prefixes in the
network instance `DEFAULT`, as SHA-256 has them. -/
def toyDigest (text : String) : UInt64 :=
  if text = "nh\x00DEFAULT\x00192.0.2.1" then 0xf3ccddc30599af62
  else if text = "nh\x00DEFAULT\x00192.0.2.2" then 0x78c2b0d50d5d47b2
  else if text = "nhg\x00DEFAULT\x00203.0.113.0/24\x00primary" then 0x9c3de717c6ce3606
  else if text = "nhg\x00DEFAULT\x00203.0.113.0/24\x00backup" then 0x684a67d5853ec654
  else if text = "nhg\x00DEFAULT\x0010.0.0.0/8\x00primary" then 0x25eb8a724487f94a
  else if text = "nhg\x00DEFAULT\x0010.0.0.0/8\x00backup" then 0x97851af7485e7191
  else 0

def toyLibrary : Library where
  digest := toyDigest
  routeToken group := UInt64.ofNat group.length
  sortRoutes := routeLess_by.rearranged id List.Perm.refl

def bothRoles (routePrefix : String) : List RouteOperation :=
  [{ device := "r1", routePrefix := routePrefix, nextHop := "192.0.2.1", nextHopNode := "r2",
     metric := 1, intentID := "i", pathRole := "primary" },
    { device := "r1", routePrefix := routePrefix, nextHop := "192.0.2.2", nextHopNode := "r3",
      metric := 2, intentID := "i", pathRole := "backup" }]

def toyEntries (routes : List RouteOperation) : List Entry :=
  (entriesForRoutes toyLibrary "DEFAULT" routes).toOption.getD []

/-- The identifiers of the backup and the primary group of `10.0.0.0/8` are in the right order. -/
theorem diff_safe_added :
    ∃ old new, entriesForRoutes toyLibrary "DEFAULT" [] = .ok old ∧
      entriesForRoutes toyLibrary "DEFAULT" (bothRoles "10.0.0.0/8") = .ok new ∧
      ∀ n, Safe [] (bothRoles "10.0.0.0/8")
        (run (table old) (((operations old new).take n).map Operation.edit)) := by
  have hprefixes : prefixes ([] ++ bothRoles "10.0.0.0/8") = ["10.0.0.0/8"] := by decide +kernel
  have hfree : CollisionFree toyLibrary "DEFAULT" ([] ++ bothRoles "10.0.0.0/8") := by
    intro p hp p' hp' role role' h
    rw [hprefixes, mem_singleton] at hp hp'
    subst hp hp'
    cases role <;> cases role' <;> first
      | exact ⟨rfl, rfl⟩
      | exact absurd h (by decide +kernel)
  have hold : entriesForRoutes toyLibrary "DEFAULT" [] = .ok (toyEntries []) := by decide +kernel
  have hnew : entriesForRoutes toyLibrary "DEFAULT" (bothRoles "10.0.0.0/8") =
      .ok (toyEntries (bothRoles "10.0.0.0/8")) := by decide +kernel
  refine ⟨_, _, hold, hnew, (diff_safe_iff hfree hold hnew).mpr ⟨fun p hprimary _ _ => ?_,
    fun p hprimary _ _ => ?_⟩⟩
  · obtain ⟨route, hroute, rfl, -⟩ := hprimary
    have hp : route.routePrefix = "10.0.0.0/8" := by
      have hall : ∀ route ∈ bothRoles "10.0.0.0/8", route.routePrefix = "10.0.0.0/8" := by decide
      exact hall route hroute
    rw [hp]
    decide +kernel
  · obtain ⟨route, hroute, -⟩ := hprimary
    cases hroute

theorem apply_undoes_added : ∃ old new, entriesForRoutes toyLibrary "DEFAULT" [] = .ok old ∧
    entriesForRoutes toyLibrary "DEFAULT" (bothRoles "10.0.0.0/8") = .ok new ∧
    run (run (table old) (((operations old new).take 3).map Operation.edit))
      ((operations new old).map Operation.edit) = table old :=
  have hold : entriesForRoutes toyLibrary "DEFAULT" [] = .ok (toyEntries []) := by decide +kernel
  have hnew : entriesForRoutes toyLibrary "DEFAULT" (bothRoles "10.0.0.0/8") =
      .ok (toyEntries (bothRoles "10.0.0.0/8")) := by decide +kernel
  ⟨_, _, hold, hnew, ((apply_repeats_and_undoes hold hnew 3).2.2 _ rfl).2⟩

/-- For `203.0.113.0/24` the primary group comes first. After the third operation it is there and
names a backup group that is not. -/
theorem backup_group_added_late :
    entriesForRoutes toyLibrary "DEFAULT" [] = .ok (toyEntries []) ∧
      entriesForRoutes toyLibrary "DEFAULT" (bothRoles "203.0.113.0/24") =
        .ok (toyEntries (bothRoles "203.0.113.0/24")) ∧
      CollisionFree toyLibrary "DEFAULT" ([] ++ bothRoles "203.0.113.0/24") ∧
      ¬ Safe [] (bothRoles "203.0.113.0/24") (run (table (toyEntries []))
        (((operations (toyEntries []) (toyEntries (bothRoles "203.0.113.0/24"))).take 3).map
          Operation.edit)) := by
  have hprefixes : prefixes ([] ++ bothRoles "203.0.113.0/24") = ["203.0.113.0/24"] := by
    decide +kernel
  refine ⟨by decide +kernel, by decide +kernel, ?_, fun hsafe => ?_⟩
  · intro p hp p' hp' role role' h
    rw [hprefixes, mem_singleton] at hp hp'
    subst hp hp'
    cases role <;> cases role' <;> first
      | exact ⟨rfl, rfl⟩
      | exact absurd h (by decide +kernel)
  · refine hsafe.backup (groupKey 2035036695946999302) 2035036695946999302 [8344288039293005666]
      7514933094982272596 ?_ ?_
    · decide +kernel
    · decide +kernel

end StarFabric.Gribi
