import StarFabric.Evpn.Codec
import Mathlib.Data.List.Nodup

/-!
# Path attributes on the wire

The outer layer of an UPDATE. `Encodes` says which octets are a list of path attributes: flags, a
kind, a length of one or two octets as the flags say, and the value. `read_update` accepts exactly
the lists without a repeated kind (`readAttributes_eq_ok_iff`), and raises `ValueError` on all other
octets (`raises_readAttributes`).
-/

namespace StarFabric.Evpn

open List Prod Py Wire

/-- The octets are a list of path attributes. -/
inductive Encodes : Bytes → Attributes → Prop
  | nil : Encodes [] []
  | short {flags kind size : UInt8} {value rest : Bytes} {attributes : Attributes}
    (hflags : flags &&& 0x10 = 0) (hsize : value.length = size.toNat) :
    Encodes rest attributes →
      Encodes (flags :: kind :: size :: (value ++ rest)) ((kind, value) :: attributes)
  | extended {flags kind high low : UInt8} {value rest : Bytes} {attributes : Attributes}
    (hflags : flags &&& 0x10 ≠ 0) (hsize : value.length = Wire.value [high, low]) :
    Encodes rest attributes →
      Encodes (flags :: kind :: high :: low :: (value ++ rest)) ((kind, value) :: attributes)

section Round

variable (attributes : Attributes) {flags : UInt8} (kind : UInt8)

theorem attributesBody_cons {n : ℕ} (hn : (if flags &&& 0x10 ≠ 0 then 4 else 3) = n)
    (octet : UInt8) (tail : Bytes) :
    attributesBody attributes (flags :: kind :: octet :: tail) =
      if tail.length + 3 < n then raise "truncated attribute length"
      else if tail.length + 3 < n + Wire.value (slice 2 n (flags :: kind :: octet :: tail)) ∨
          (attributes.lookup kind).isSome then raise "invalid or duplicate attribute"
      else .ok (attributes ++ [(kind, slice n
        (n + Wire.value (slice 2 n (flags :: kind :: octet :: tail)))
        (flags :: kind :: octet :: tail))], (flags :: kind :: octet :: tail).drop
        (n + Wire.value (slice 2 n (flags :: kind :: octet :: tail)))) := by
  subst hn
  rfl

theorem attributesBody_short (hflags : flags &&& 0x10 = 0) (size : UInt8) (tail : Bytes) :
    attributesBody attributes (flags :: kind :: size :: tail) =
      if tail.length < size.toNat ∨ (attributes.lookup kind).isSome then
        raise "invalid or duplicate attribute"
      else .ok (attributes ++ [(kind, tail.take size.toNat)], tail.drop size.toNat) := by
  have hsize : Wire.value (slice 2 3 (flags :: kind :: size :: tail)) = size.toNat := by
    show 0 * 256 + size.toNat = size.toNat
    omega
  rw [attributesBody_cons attributes kind (if_neg (not_not.mpr hflags)), if_neg (by omega), hsize,
    Nat.add_comm 3]
  simp only [Nat.add_lt_add_iff_right]
  rfl

theorem attributesBody_extended (hflags : flags &&& 0x10 ≠ 0) (high low : UInt8) (tail : Bytes) :
    attributesBody attributes (flags :: kind :: high :: low :: tail) =
      if tail.length < Wire.value [high, low] ∨ (attributes.lookup kind).isSome then
        raise "invalid or duplicate attribute"
      else .ok (attributes ++ [(kind, tail.take (Wire.value [high, low]))],
        tail.drop (Wire.value [high, low])) := by
  have hsize : slice 2 4 (flags :: kind :: high :: low :: tail) = [high, low] := rfl
  rw [attributesBody_cons attributes kind (if_pos hflags), if_neg (by simp), hsize, Nat.add_comm 4,
    length_cons]
  generalize Wire.value [high, low] = n
  simp only [Nat.add_assoc, Nat.add_lt_add_iff_right]
  rfl

end Round

theorem isSome_lookup_iff (attributes : Attributes) (kind : UInt8) :
    (attributes.lookup kind).isSome = true ↔ kind ∈ attributes.map fst := by
  induction attributes with
  | nil => exact ⟨fun h => absurd h Bool.false_ne_true, nofun⟩
  | cons head attributes ih =>
    rw [lookup_cons, map_cons, mem_cons, ← ih]
    cases hkind : kind == head.1 with
    | true => exact ⟨fun _ => .inl (beq_iff_eq.mp hkind), fun _ => rfl⟩
    | false => exact ⟨.inr, fun h => h.resolve_left (beq_eq_false_iff_ne.mp hkind)⟩

section Loop

theorem attributesBody_eq_ok {found found' : Attributes} {data rest : Bytes}
    (h : attributesBody found data = .ok (found', rest)) :
    rest.length < data.length ∧
      ∃ kind value, found' = found ++ [(kind, value)] ∧ kind ∉ found.map fst ∧
        ∀ more, Encodes rest more → Encodes data ((kind, value) :: more) := by
  match data with
  | [] | [_] | [_, _] => cases h
  | flags :: kind :: octet :: tail =>
    by_cases hflags : flags &&& 0x10 = 0
    · rw [attributesBody_short found kind hflags] at h
      obtain ⟨hchecks, h⟩ := ite_raise_eq_ok.mp h
      obtain ⟨hlength, hnew⟩ := not_or.mp hchecks
      cases h
      refine ⟨?_, kind, _, rfl, mt (isSome_lookup_iff found kind).mpr hnew, fun more hrest => ?_⟩
      · simp only [length_drop, length_cons]
        omega
      have hencodes : Encodes (flags :: kind :: octet ::
          (tail.take octet.toNat ++ tail.drop octet.toNat))
          ((kind, tail.take octet.toNat) :: more) :=
        .short hflags (by rw [length_take]; omega) hrest
      rwa [take_append_drop] at hencodes
    · match tail with
      | [] =>
        rw [attributesBody_cons found kind (if_pos hflags)] at h
        cases h
      | low :: tail =>
        rw [attributesBody_extended found kind hflags] at h
        obtain ⟨hchecks, h⟩ := ite_raise_eq_ok.mp h
        obtain ⟨hlength, hnew⟩ := not_or.mp hchecks
        cases h
        refine ⟨?_, kind, _, rfl, mt (isSome_lookup_iff found kind).mpr hnew, fun more hrest => ?_⟩
        · simp only [length_drop, length_cons]
          omega
        have hencodes : Encodes (flags :: kind :: octet :: low ::
            (tail.take (Wire.value [octet, low]) ++ tail.drop (Wire.value [octet, low])))
            ((kind, tail.take (Wire.value [octet, low])) :: more) :=
          .extended hflags (by rw [length_take]; omega) hrest
        rwa [take_append_drop] at hencodes

theorem shortens_attributesBody : Shortens attributesBody := fun _ _ _ _ h =>
  (attributesBody_eq_ok h).1

theorem raises_attributesBody (attributes : Attributes) (data : Bytes) :
    Raises Error.IsValue (attributesBody attributes data) := by
  refine .ite (fun _ => raises_raise _) fun _ => (raises_pair _).bind fun head _ => ?_
  refine .ite (fun _ => raises_raise _) fun _ => .ite (fun _ => raises_raise _) fun _ => ?_
  exact raises_ok _

theorem raises_readAttributes (data : Bytes) : Raises Error.IsValue (readAttributes data) := by
  refine .ite (fun _ => raises_raise _) fun _ => .ite (fun _ => raises_raise _) fun _ => ?_
  exact raises_whileData shortens_attributesBody raises_attributesBody _ _

variable {data : Bytes} {attributes : Attributes}

theorem Encodes.read (h : Encodes data attributes) {found : Attributes}
    (hnodup : ((found ++ attributes).map fst).Nodup) :
    whileData attributesBody found data = .ok (found ++ attributes) := by
  -- the attribute of a round is new, and the rest is read behind it
  have hfound : ∀ {found attributes : Attributes} {kind : UInt8} {value : Bytes},
      ((found ++ (kind, value) :: attributes).map fst).Nodup →
      ¬ (found.lookup kind).isSome = true := by
    intro found attributes kind value hnodup hsome
    rw [isSome_lookup_iff] at hsome
    rw [map_append, map_cons] at hnodup
    exact disjoint_of_nodup_append hnodup hsome mem_cons_self
  induction h generalizing found with
  | nil =>
    rw [append_nil]
    rfl
  | @short flags kind size value rest attributes hflags hsize _ ih =>
    have hbody : attributesBody found (flags :: kind :: size :: (value ++ rest)) =
        .ok (found ++ [(kind, value)], rest) := by
      rw [attributesBody_short found kind hflags, ← hsize, take_left, drop_left]
      refine ite_raise_eq_ok.mpr ⟨not_or.mpr ⟨?_, hfound hnodup⟩, rfl⟩
      rw [length_append]
      omega
    rw [append_cons] at hnodup ⊢
    exact (scan_length_step shortens_attributesBody (cons_ne_nil _ _) hbody).trans (ih hnodup)
  | @extended flags kind high low value rest attributes hflags hsize _ ih =>
    have hbody : attributesBody found (flags :: kind :: high :: low :: (value ++ rest)) =
        .ok (found ++ [(kind, value)], rest) := by
      rw [attributesBody_extended found kind hflags, ← hsize, take_left, drop_left]
      refine ite_raise_eq_ok.mpr ⟨not_or.mpr ⟨?_, hfound hnodup⟩, rfl⟩
      rw [length_append]
      omega
    rw [append_cons] at hnodup ⊢
    exact (scan_length_step shortens_attributesBody (cons_ne_nil _ _) hbody).trans (ih hnodup)

theorem encodes_of_whileData (h : whileData attributesBody [] data = .ok attributes) :
    Encodes data attributes ∧ (attributes.map fst).Nodup := by
  have haccepts : ∃ more, attributes = [] ++ more ∧ Encodes data more ∧
      ((([] : Attributes).map fst).Nodup → (attributes.map fst).Nodup) := by
    refine scan_accepts (R := fun found data attributes => ∃ more, attributes = found ++ more ∧
      Encodes data more ∧ ((found.map fst).Nodup → (attributes.map fst).Nodup))
      (fun found => ⟨[], (append_nil found).symm, .nil, id⟩) ?_ h
    rintro found data found' rest _ hbody ⟨more, rfl, hmore, hnodup⟩
    obtain ⟨-, kind, value, rfl, hnew, hencodes⟩ := attributesBody_eq_ok hbody
    refine ⟨(kind, value) :: more, append_assoc found _ more, hencodes more hmore, ?_⟩
    intro hfound
    apply hnodup
    rw [map_append]
    exact List.Nodup.append hfound (nodup_singleton kind) (by simpa using hnew)
  obtain ⟨more, rfl, hmore, hnodup⟩ := haccepts
  exact ⟨hmore, hnodup nodup_nil⟩

/-- **The outer layer of an UPDATE**: no withdrawn routes of its own, the length of the attributes,
and the attributes without a repeated kind. -/
theorem readAttributes_eq_ok_iff :
    readAttributes data = .ok attributes ↔
      ∃ body : Bytes, body.length < 65536 ∧ data = [0x00, 0x00] ++ (toOctets 2 body.length ++ body) ∧
        Encodes body attributes ∧ (attributes.map fst).Nodup := by
  constructor
  · intro h
    obtain ⟨hhead, h⟩ := ite_raise_eq_ok.mp h
    obtain ⟨hlength, h⟩ := ite_raise_eq_ok.mp h
    rw [not_or, not_not] at hhead
    have htwo : (slice 2 4 data).length = 2 := by
      rw [length_slice]
      omega
    have hvalue : Wire.value (slice 2 4 data) = (data.drop 4).length := by
      rw [length_drop]
      omega
    have hoctets : toOctets 2 (data.drop 4).length = slice 2 4 data := by
      have hback := toOctets_value (slice 2 4 data)
      rwa [htwo, hvalue] at hback
    refine ⟨data.drop 4, ?_, ?_, encodes_of_whileData h⟩
    · have hlt := value_lt (slice 2 4 data)
      rwa [htwo, hvalue] at hlt
    · rw [hoctets, slice_append_drop (by decide), ← hhead.2, take_append_drop]
  · rintro ⟨body, hlt, rfl, hencodes, hnodup⟩
    have hvalue : Wire.value (slice 2 4 ([0x00, 0x00] ++ (toOctets 2 body.length ++ body))) =
        body.length := by
      have hslice := slice_zero_append body (length_toOctets 2 body.length)
      exact (congrArg Wire.value hslice).trans (value_toOctets hlt)
    have hlength : ([0x00, 0x00] ++ (toOctets 2 body.length ++ body)).length = body.length + 4 := by
      simp only [length_append, length_toOctets, length_cons, length_nil]
      omega
    have hdrop : ([0x00, 0x00] ++ (toOctets 2 body.length ++ body)).drop 4 = body := by
      rfl
    refine ite_raise_eq_ok.mpr ⟨?_, ite_raise_eq_ok.mpr ⟨?_, ?_⟩⟩
    · rw [not_or, not_lt, not_not, hlength]
      exact ⟨by omega, rfl⟩
    · rw [not_not, hvalue, hlength]
    · rw [hdrop]
      exact hencodes.read hnodup

end Loop

end StarFabric.Evpn
