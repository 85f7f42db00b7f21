import Mathlib.Order.Nat

/-!
# Hop-by-hop forwarding

Nodes forward on their own, each to some next hop. `Arrives` says that whatever they choose, the
walk ends at its destination after finitely many hops, meets no node twice and uses only hops of a
given kind. `arrives_of_rank` is the proof rule: a rank that every hop lowers.
-/

namespace HopByHop

open List

variable {N : Type}

/-- From the node, with some nodes visited before, every choice of next hops leads to `dst`
without meeting a visited node again, over hops that are `ok`. -/
inductive Arrives (hop ok : N → N → Prop) (dst : N) : List N → N → Prop
  | here {visited : List N} : Arrives hop ok dst visited dst
  | forward {visited : List N} {v : N} (exists_hop : ∃ w, hop v w)
      (ok_hop : ∀ w, hop v w → ok v w) (new : ∀ w, hop v w → w ∉ v :: visited)
      (arrives : ∀ w, hop v w → Arrives hop ok dst (v :: visited) w) :
      Arrives hop ok dst visited v

/-- **The rule for forwarding.** On the nodes of interest every node but the destination has
a next hop, and every hop stays among them and lowers the rank. -/
theorem arrives_of_rank {hop ok : N → N → Prop} {dst : N} (on : N → Prop) (rank : N → ℕ)
    (hnext : ∀ v, on v → v ≠ dst → ∃ w, hop v w)
    (hstep : ∀ v w, on v → v ≠ dst → hop v w → ok v w ∧ on w ∧ rank w < rank v)
    {visited : List N} {v : N} (hv : on v) (hvisited : ∀ x ∈ visited, rank v < rank x) :
    Arrives hop ok dst visited v := by
  induction h : rank v using Nat.strong_induction_on generalizing v visited with
  | _ n ih =>
    by_cases hdst : v = dst
    · exact hdst ▸ Arrives.here
    subst h
    -- all nodes visited so far have a larger rank than any next hop
    have hbelow : ∀ w, hop v w → ∀ x ∈ v :: visited, rank w < rank x := by
      intro w hw x hx
      have hless := (hstep v w hv hdst hw).2.2
      rcases mem_cons.mp hx with rfl | hx
      · exact hless
      · exact hless.trans (hvisited x hx)
    refine Arrives.forward (hnext v hv hdst) (fun w hw => (hstep v w hv hdst hw).1)
      (fun w hw hmem => lt_irrefl _ (hbelow w hw w hmem)) fun w hw => ?_
    obtain ⟨-, hon, hless⟩ := hstep v w hv hdst hw
    exact ih (rank w) hless hon (hbelow w hw) rfl

theorem exists_rank_of_nodup {nodes : List N} (h : nodes.Nodup) :
    ∃ rank : N → ℕ, ∀ hop ∈ nodes.zip nodes.tail, rank hop.2 < rank hop.1 := by
  classical
  induction nodes with
  | nil => exact ⟨fun _ => 0, nofun⟩
  | cons a rest ih =>
    rw [nodup_cons] at h
    cases rest with
    | nil => exact ⟨fun _ => 0, nofun⟩
    | cons b rest =>
      obtain ⟨rank, hrank⟩ := ih h.2
      refine ⟨fun x => if x = a then rank b + 1 else rank x, fun hop hhop => ?_⟩
      have hne : ∀ x ∈ b :: rest, x ≠ a := fun x hx heq => h.1 (heq ▸ hx)
      rw [tail_cons, zip_cons_cons, mem_cons] at hhop
      rcases hhop with rfl | hhop
      · simp [hne b mem_cons_self]
      · have hmem := of_mem_zip hhop
        have hsnd : hop.2 ≠ a := hne _ (mem_cons_of_mem b hmem.2)
        simpa [hne _ hmem.1, hsnd] using hrank hop hhop

end HopByHop
