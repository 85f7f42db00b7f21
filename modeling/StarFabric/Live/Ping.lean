import Mathlib.Data.List.DropRight
import Mathlib.Data.List.Infix

/-!
# Counters of the continuous ping

`PingCounters` of `lab/live/storage.py`. A line of `ping` shows the last sixteen bits of a sequence
number, and `consume` guesses the rest from the highest number so far. The regular expressions and
`float` are parameters (`Reader`).
-/

namespace StarFabric.Live

open List

variable {F : Type}

/-- The number after `icmp_seq=`, the time stamp and the round trip of a reply, and `float`. -/
structure Reader (F : Type) where
  icmpSeq : String → Option ℕ
  reply : String → Option (String × String)
  float : String → Except String F

structure Sample (F : Type) where
  time : F
  seq : ℤ
  rtt : F

structure PingCounters (F : Type) where
  samples : List (Sample F) := []
  highest : ℤ := 0
  received : ℕ := 0

/-- `append` of a deque with `maxlen=1800`. -/
def append (samples : List (Sample F)) (sample : Sample F) : List (Sample F) :=
  (samples ++ [sample]).rtake 1800

def extend (highest : ℤ) (seq : ℕ) : ℤ :=
  let extended := highest / 65536 * 65536 + seq
  if extended < highest - 32768 then extended + 65536
  else if extended > highest + 32768 then extended - 65536
  else extended

/-- The numbers of a line that counts as received. -/
def Reader.received (r : Reader F) (line : String) : Option (Except String (F × F)) :=
  if "DUP!".toList <:+: line.toList then none
  else (r.reply line).map fun (time, rtt) => do return (← r.float time, ← r.float rtt)

def consume (r : Reader F) (line : String) (c : PingCounters F) :
    Except String Unit × PingCounters F :=
  match r.icmpSeq line with
  | none => (.ok (), c)
  | some seq =>
    let extended := extend c.highest seq
    let c := { c with highest := max c.highest extended }
    match r.received line with
    | none => (.ok (), c)
    -- the reply is counted before its numbers are read
    | some (.error e) => (.error e, { c with received := c.received + 1 })
    | some (.ok (time, rtt)) =>
      (.ok (), { c with
        received := c.received + 1, samples := append c.samples ⟨time, extended, rtt⟩ })

/-- A line and the true sequence number it is about, if any. -/
abbrev Observed := String × Option ℕ

def consumeAll (r : Reader F) (seen : List Observed) : PingCounters F :=
  seen.foldl (fun c o => (consume r o.1 c).2) {}

def largest (seen : List Observed) : ℕ := (seen.filterMap Prod.snd).foldl max 0

/-- The sample of a line, with the true number. -/
def recorded (r : Reader F) : Observed → Option (Sample F)
  | (line, some n) =>
    match r.received line with
    | some (.ok (time, rtt)) => some ⟨time, n, rtt⟩
    | _ => none
  | (_, none) => none

/-- Every line shows its number modulo 65536, and no number is further than 32767 from the largest
one before it. -/
def Near (r : Reader F) (seen : List Observed) : Prop :=
  ∀ i (h : i < seen.length), r.icmpSeq seen[i].1 = seen[i].2.map (· % 65536) ∧
    ∀ n ∈ seen[i].2, n ≤ largest (seen.take i) + 32767 ∧ largest (seen.take i) ≤ n + 32767

theorem extend_eq {highest n : ℕ} (habove : n ≤ highest + 32767) (hbelow : highest ≤ n + 32767) :
    extend highest (n % 65536) = n := by
  unfold extend
  grind

theorem largest_snoc (seen : List Observed) (o : Observed) :
    largest (seen ++ [o]) = max (largest seen) (o.2.getD 0) := by
  obtain ⟨line, _ | n⟩ := o <;> simp [largest]

theorem rtake_rtake {α : Type} (l : List α) {n m : ℕ} (h : n ≤ m) :
    (l.rtake m).rtake n = l.rtake n := by
  simp [rtake_eq_reverse_take_reverse, take_take, h]

section

variable {r : Reader F} {seen : List Observed} {o : Observed} {c : PingCounters F}

theorem Near.take (h : Near r seen) (k : ℕ) : Near r (seen.take k) := by
  intro i hi
  rw [length_take] at hi
  simpa [take_take, Nat.min_eq_left (show i ≤ k by omega)] using h i (by omega)

/-- One line: the new highest number and the new samples. -/
theorem consume_spec (hnear : Near r (seen ++ [o])) (hhighest : c.highest = largest seen)
    (hsamples : c.samples = (seen.filterMap (recorded r)).rtake 1800) :
    (consume r o.1 c).2.highest = largest (seen ++ [o]) ∧
      (consume r o.1 c).2.samples = ((seen ++ [o]).filterMap (recorded r)).rtake 1800 := by
  obtain ⟨hseq, hwithin⟩ : r.icmpSeq o.1 = o.2.map (· % 65536) ∧
      ∀ n ∈ o.2, n ≤ largest seen + 32767 ∧ largest seen ≤ n + 32767 := by
    simpa using hnear seen.length (by simp)
  obtain ⟨line, _ | n⟩ := o
  · simp [consume, hseq, largest_snoc, hhighest, hsamples, recorded, filterMap_cons]
  · have hextend := extend_eq (hwithin n rfl).1 (hwithin n rfl).2
    rcases hreceived : r.received line with _ | e | ⟨time, rtt⟩ <;>
      simp [consume, hseq, hreceived, hextend, hhighest, hsamples, recorded, append,
        rtake_rtake, largest_snoc] <;> omega

theorem consumeAll_spec (hnear : Near r seen) :
    (consumeAll r seen).highest = largest seen ∧
      (consumeAll r seen).samples = (seen.filterMap (recorded r)).rtake 1800 := by
  induction seen using reverseRecOn with
  | nil => simp [consumeAll, largest]
  | append_singleton seen o ih =>
    obtain ⟨hhighest, hsamples⟩ := ih (by simpa using hnear.take seen.length)
    simpa [consumeAll] using consume_spec hnear hhighest hsamples

end

/-- After any number of lines the highest number is the largest true one and the samples are those
of the last 1800 replies, with their true numbers. The next line is extended to its true number. -/
theorem ping_numbers_exact (r : Reader F) (seen : List Observed) (hnear : Near r seen) :
    (∀ k, (consumeAll r (seen.take k)).highest = largest (seen.take k) ∧
      (consumeAll r (seen.take k)).samples = ((seen.take k).filterMap (recorded r)).rtake 1800) ∧
    ∀ i (h : i < seen.length), ∀ n ∈ seen[i].2, ∃ seq ∈ r.icmpSeq seen[i].1,
      extend (consumeAll r (seen.take i)).highest seq = n := by
  refine ⟨fun k => consumeAll_spec (hnear.take k), ?_⟩
  intro i h n hn
  obtain ⟨hseq, hwithin⟩ := hnear i h
  refine ⟨n % 65536, by rw [hseq, hn]; rfl, ?_⟩
  rw [(consumeAll_spec (hnear.take i)).1]
  exact extend_eq (hwithin n hn).1 (hwithin n hn).2

/-- A reordered reply after a wrap-around. -/
theorem ping_numbers_exact_wrapped :
    (consumeAll (F := ℕ) ⟨fun line => some (line.length * 30000 % 65536), fun _ => none, .error⟩
      [("a", some 30000), ("aa", some 60000), ("aaa", some 90000), ("aa", some 60000)]).highest =
      90000 := by
  have h := ping_numbers_exact (F := ℕ)
    ⟨fun line => some (line.length * 30000 % 65536), fun _ => none, .error⟩
    [("a", some 30000), ("aa", some 60000), ("aaa", some 90000), ("aa", some 60000)]
    (by unfold Near; decide +kernel)
  exact (h.1 4).1

end StarFabric.Live
