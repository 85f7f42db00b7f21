import StarFabric.Evpn.RoundTrip
import StarFabric.Evpn.Fabric

/-!
# Streams of messages

The octets of a session are messages one behind the other. Whatever part of them has arrived, the
reader takes the first message off when it is complete, and waits otherwise (`Stream.receive`). A
message says one thing (`Note`): it keeps the session alive, announces one route or withdraws one
key.
-/

namespace StarFabric.Evpn

open Py Wire ExceptFold List

section Framing

def frameOctets (kind : UInt8) (body : Bytes) : Bytes :=
  List.replicate 16 0xff ++ (toOctets 2 (body.length + 19) ++ ([kind] ++ body))

theorem length_frameOctets (kind : UInt8) (body : Bytes) :
    (frameOctets kind body).length = body.length + 19 := by
  simp only [frameOctets, length_append, length_replicate, length_toOctets, length_cons, length_nil]
  omega

theorem drop_frameOctets (kind : UInt8) (body : Bytes) :
    (frameOctets kind body).drop 19 = body := by
  rfl

variable {kind : UInt8}

theorem receive_frameOctets {body : Bytes} (hbody : body.length ≤ 4077)
    (hkind : kind ∈ [1, 2, 3, 4]) (rest : Bytes) :
    receive (frameOctets kind body ++ rest) = .ok (some (kind, body, rest)) := by
  have hlength := length_frameOctets kind body
  have hsize : Wire.value (slice 16 18 (frameOctets kind body ++ rest)) = body.length + 19 := by
    have hslice := slice_zero_append ([kind] ++ body) (length_toOctets 2 (body.length + 19))
    exact (congrArg Wire.value hslice).trans (value_toOctets (k := 2) (by omega))
  have hitem : item (frameOctets kind body ++ rest) 18 = .ok kind := by
    rfl
  have htake : (frameOctets kind body ++ rest).take 16 = List.replicate 16 0xff := by
    unfold frameOctets
    rw [append_assoc, take_left']
    exact length_replicate
  have hdrop : (frameOctets kind body ++ rest).drop (body.length + 19) = rest := by
    rw [← hlength, drop_left]
  have hslice : slice 19 (body.length + 19) (frameOctets kind body ++ rest) = body := by
    rw [slice_append_left hlength.ge, slice, ← hlength, take_length, drop_frameOctets]
  have htotal : ¬ (frameOctets kind body ++ rest).length < body.length + 19 := by
    rw [length_append, hlength]
    omega
  unfold receive
  rw [if_neg (by rw [length_append]; omega), hitem]
  dsimp only [bind, Except.bind]
  rw [htake, hsize, if_neg, if_neg htotal, hslice, hdrop]
  · rfl
  · rintro (h | h | h | h)
    · exact h rfl
    · omega
    · omega
    · exact h hkind

variable {data : Bytes}

theorem receive_append {body rest : Bytes} (h : receive data = .ok (some (kind, body, rest)))
    (more : Bytes) :
    receive (data ++ more) = .ok (some (kind, body, rest ++ more)) := by
  unfold receive at h ⊢
  split_ifs at h with hshort
  · cases h
  rw [if_neg (by rw [length_append]; omega), item_append_left (by omega),
    slice_append_left (by omega), take_append_of_le_length (by omega)]
  obtain ⟨octet, hoctet, h⟩ := bind_eq_ok.mp h
  refine bind_eq_ok.mpr ⟨octet, hoctet, ?_⟩
  obtain ⟨hheader, h⟩ := ite_raise_eq_ok.mp h
  refine ite_raise_eq_ok.mpr ⟨hheader, ?_⟩
  split_ifs at h with hsize
  · cases h
  rw [if_neg (by rw [length_append]; omega), slice_append_left (not_lt.mp hsize),
    drop_append_of_le_length (not_lt.mp hsize)]
  cases h
  rfl

theorem receive_append_error {e : Error} (h : receive data = .error e) (more : Bytes) :
    receive (data ++ more) = .error e := by
  unfold receive at h ⊢
  split_ifs at h with hshort
  · cases h
  rw [if_neg (by rw [length_append]; omega), item_append_left (by omega),
    slice_append_left (by omega), take_append_of_le_length (by omega)]
  cases hitem : item data 18 with
  | error e' =>
    rw [hitem] at h
    exact h
  | ok octet =>
    rw [hitem] at h
    change (if _ then _ else _) = _ at h
    change (if _ then _ else _) = _
    split_ifs at h ⊢
    · exact h
    all_goals cases h

end Framing

/-! ### Notes -/

/-- What a message says. -/
inductive Note where
  | keepalive
  | announce (route : Route)
  | withdraw (key : Key)

/-- The message with this kind and body says it. -/
inductive Note.SaidBy : Note → UInt8 → Bytes → Prop
  | keepalive : SaidBy .keepalive 4 []
  | announce {route : Route} {body : Bytes} (h : readUpdate body = .ok ([route], [])) :
    SaidBy (.announce route) 2 body
  | withdraw {key : Key} {body : Bytes} (h : readUpdate body = .ok ([], [key])) :
    SaidBy (.withdraw key) 2 body

def Says (octets : Bytes) (note : Note) : Prop :=
  ∃ kind body, octets = frameOctets kind body ∧ body.length ≤ 4077 ∧ note.SaidBy kind body

/-- The octets are messages that say these things, in this order. -/
inductive Stream : Bytes → List Note → Prop
  | nil : Stream [] []
  | cons {octets rest : Bytes} {note : Note} {notes : List Note} :
    Says octets note → Stream rest notes → Stream (octets ++ rest) (note :: notes)

section Streams

variable {octets : Bytes} {note : Note}

theorem Says.receive (h : Says octets note) (rest : Bytes) :
    ∃ kind body, note.SaidBy kind body ∧
      Evpn.receive (octets ++ rest) = .ok (some (kind, body, rest)) := by
  obtain ⟨kind, body, rfl, hlength, hsaid⟩ := h
  refine ⟨kind, body, hsaid, receive_frameOctets hlength ?_ rest⟩
  cases hsaid <;> decide

variable {notes : List Note}

theorem Stream.append {data data' : Bytes} {notes' : List Note} (h : Stream data notes)
    (h' : Stream data' notes') : Stream (data ++ data') (notes ++ notes') := by
  induction h with
  | nil => exact h'
  | cons hsay _ ih =>
    rw [append_assoc]
    exact .cons hsay ih

theorem Stream.singleton (h : Says octets note) : Stream octets [note] := by
  have hstream := Stream.cons h .nil
  rwa [append_nil] at hstream

theorem Stream.flatMap {α : Type} {l : List α} {octets : α → Bytes} {note : α → Note}
    (h : ∀ a ∈ l, Says (octets a) (note a)) : Stream (l.flatMap octets) (l.map note) := by
  induction l with
  | nil => exact .nil
  | cons a l ih =>
    obtain ⟨ha, hl⟩ := forall_mem_cons.mp h
    exact .cons ha (ih hl)

theorem Stream.receive {received outgoing : Bytes} (h : Stream (received ++ outgoing) notes) :
    Evpn.receive received = .ok none ∨ ∃ note notes' kind body rest, notes = note :: notes' ∧
      note.SaidBy kind body ∧ Evpn.receive received = .ok (some (kind, body, rest)) ∧
      Stream (rest ++ outgoing) notes' := by
  cases hreceive : Evpn.receive received with
  | error e =>
    -- a wrong header stays wrong, but the stream begins with a message or is empty
    have happend := receive_append_error hreceive outgoing
    generalize hdata : received ++ outgoing = data at h happend
    cases h with
    | nil => cases happend
    | cons hsay hrest =>
      obtain ⟨kind, body, -, hfirst⟩ := hsay.receive _
      rw [happend] at hfirst
      cases hfirst
  | ok message =>
    cases message with
    | none => exact .inl rfl
    | some message =>
      obtain ⟨kind, body, rest⟩ := message
      have happend := receive_append hreceive outgoing
      generalize hdata : received ++ outgoing = data at h happend
      cases h with
      | nil => cases happend
      | @cons octets rest' note notes' hsay hrest =>
        obtain ⟨kind', body', hsaid, hfirst⟩ := hsay.receive rest'
        rw [happend] at hfirst
        cases hfirst
        exact .inr ⟨note, notes', kind, body, rest, rfl, hsaid, rfl, hrest⟩

theorem Stream.messages {data : Bytes} (h : Stream data notes) {n : ℕ} (hn : data.length ≤ n)
    (hnote : note ∈ notes) :
    ∃ message ∈ Evpn.messages n data, note.SaidBy message.1 message.2 := by
  induction h generalizing n with
  | nil => cases hnote
  | @cons octets rest first notes hsay hrest ih =>
    have hlength : 19 ≤ octets.length := by
      obtain ⟨kind, body, rfl, -, -⟩ := hsay
      rw [length_frameOctets]
      omega
    obtain ⟨kind, body, hsaid, hfirst⟩ := hsay.receive rest
    rw [length_append] at hn
    obtain ⟨n, rfl⟩ : ∃ k, n = k + 1 := ⟨n - 1, by omega⟩
    unfold Evpn.messages
    rw [hfirst]
    obtain rfl | hnote := mem_cons.mp hnote
    · exact ⟨(kind, body), mem_cons_self, hsaid⟩
    · obtain ⟨message, hmem, hsaid⟩ := ih (n := n) (by omega) hnote
      exact ⟨message, mem_cons_of_mem _ hmem, hsaid⟩

end Streams

end StarFabric.Evpn
