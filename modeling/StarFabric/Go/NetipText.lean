import Mathlib.Data.List.TakeWhile
import StarFabric.Go.Netip

/-!
# Texts that package `net/netip` accepts

An address is written with hexadecimal digits, colons and dots, and a zone may consist of anything.
Without a zone the text is short: at most eight groups of at most four digits. For each function of
the parser, what it has read when it succeeds.
-/

namespace Go

open List Nat Option

def digitChars : List Char := "0123456789".toList

def addrChars : List Char := "0123456789abcdefABCDEF:.".toList

/-! ### Digits -/

variable {c : Char}

theorem mem_of_between (lo hi : ℕ) {l : List Char} (hl : ∀ n ≤ hi, lo ≤ n → Char.ofNat n ∈ l)
    (hlo : lo ≤ c.toNat) (hhi : c.toNat ≤ hi) :
    c ∈ l := by
  have hc := hl c.toNat hhi hlo
  rwa [Char.ofNat_toNat] at hc

variable {d : ℕ}

theorem mem_of_digit? (h : digit? c = some d) : c ∈ digitChars := by
  unfold digit? at h
  split_ifs at h with hc
  exact mem_of_between 48 57 (by decide) hc.1 hc.2

-- a statement about all members of a list, as a test on the list: there are too many characters
theorem forall_mem_of_all {l m : List Char} (h : l.all m.elem = true) : ∀ c ∈ l, c ∈ m :=
  fun c hc => mem_of_elem_eq_true (all_eq_true.mp h c hc)

theorem digitChars_subset (h : c ∈ digitChars) : c ∈ addrChars :=
  forall_mem_of_all (by decide) c h

theorem mem_of_hexDigit? (h : hexDigit? c = some d) : c ∈ addrChars := by
  unfold hexDigit? at h
  split_ifs at h with hdigit hlower hupper
  · exact mem_of_between 48 57 (by decide) hdigit.1 hdigit.2
  · exact mem_of_between 97 102 (by decide) hlower.1 hlower.2
  · exact mem_of_between 65 70 (by decide) hupper.1 hupper.2

variable {n : ℕ} {cs : List Char}

theorem digits?_eq_some {acc : ℕ} (h : digits? acc cs = some n) :
    (∀ c ∈ cs, c ∈ digitChars) ∧ acc * 10 ^ cs.length ≤ n := by
  induction cs generalizing acc with
  | nil =>
    cases h
    exact ⟨nofun, by simp⟩
  | cons c cs ih =>
    obtain ⟨d, hd, h⟩ := bind_eq_some_iff.mp h
    obtain ⟨hall, hle⟩ := ih h
    refine ⟨forall_mem_cons.mpr ⟨mem_of_digit? hd, hall⟩, ?_⟩
    calc acc * 10 ^ (cs.length + 1) = acc * 10 * 10 ^ cs.length := by
          rw [pow_succ', mul_assoc]
      _ ≤ (acc * 10 + d) * 10 ^ cs.length := mul_le_mul_right _ (le_add_right _ _)
      _ ≤ n := hle

/-! ### Four octets -/

/-- A field that is being read has no leading zero. -/
structure FieldShape (val digLen : ℕ) : Prop where
  le_three : digLen ≤ 3
  two : 2 ≤ digLen → 10 ≤ val
  three : 3 ≤ digLen → 100 ≤ val

theorem FieldShape.start : FieldShape 0 0 := ⟨by omega, by omega, by omega⟩

theorem FieldShape.next {val digLen : ℕ} (h : FieldShape val digLen)
    (hzero : ¬ (digLen = 1 ∧ val = 0)) (hle : val * 10 + d ≤ 255) :
    FieldShape (val * 10 + d) (digLen + 1) := by
  obtain ⟨hthree, htwo, hhundred⟩ := h
  refine ⟨?_, fun _ => ?_, fun _ => ?_⟩
  · by_contra hnot
    omega
  · by_cases hone : digLen = 1
    · omega
    · have := htwo (by omega)
      omega
  · have := htwo (by omega)
    omega

variable {input : String}

theorem parseIPv4Fields_eq_ok {val digLen : ℕ} {fields out : List ℕ} {first dot : Bool}
    (hshape : FieldShape val digLen) (hfields : fields.length ≤ 3)
    (h : parseIPv4Fields input val digLen fields first dot cs = .ok out) :
    (∀ c ∈ cs, c ∈ addrChars) ∧ cs.length ≤ 4 * (3 - fields.length) + (3 - digLen) := by
  induction cs generalizing val digLen fields first dot with
  | nil => exact ⟨nofun, zero_le _⟩
  | cons c cs ih =>
    unfold parseIPv4Fields at h
    cases hdigit : digit? c with
    | some d =>
      rw [hdigit] at h
      dsimp only at h
      split_ifs at h with hzero hlarge
      have hnext := hshape.next hzero (not_lt.mp hlarge)
      obtain ⟨hall, hlength⟩ := ih hnext hfields h
      refine ⟨forall_mem_cons.mpr ⟨digitChars_subset (mem_of_digit? hdigit), hall⟩, ?_⟩
      have := hnext.le_three
      rw [length_cons]
      omega
    | none =>
      rw [hdigit] at h
      dsimp only at h
      split_ifs at h with hdot hempty hlong
      have hlast : (fields ++ [val]).length = fields.length + 1 := length_append
      obtain ⟨hall, hlength⟩ := ih FieldShape.start (by omega) h
      refine ⟨forall_mem_cons.mpr ⟨?_, hall⟩, ?_⟩
      · rw [hdot]
        decide
      · rw [length_cons]
        omega

/-! ### Groups -/

theorem scanGroup_eq_ok {s rest : List Char} {off acc off' acc' : ℕ} (hoff : off ≤ 4)
    (h : scanGroup input s off acc cs = .ok (off', acc', rest)) :
    ∃ ds, cs = ds ++ rest ∧ (∀ c ∈ ds, c ∈ addrChars) ∧ off + ds.length ≤ 4 := by
  induction cs generalizing off acc with
  | nil =>
    cases h
    exact ⟨[], rfl, nofun, hoff⟩
  | cons c cs ih =>
    unfold scanGroup at h
    cases hdigit : hexDigit? c with
    | none =>
      rw [hdigit] at h
      cases h
      exact ⟨[], rfl, nofun, hoff⟩
    | some d =>
      rw [hdigit] at h
      split_ifs at h with hlong
      obtain ⟨ds, rfl, hall, hlength⟩ := ih (by omega) h
      refine ⟨c :: ds, rfl, forall_mem_cons.mpr ⟨mem_of_hexDigit? hdigit, hall⟩, ?_⟩
      rw [length_cons]
      omega

/-- What a parser has read of a text when `rest` is left. -/
def Reads (bound : ℕ) (s rest : List Char) : Prop :=
  ∃ read, s = read ++ rest ∧ (∀ c ∈ read, c ∈ addrChars) ∧ read.length ≤ bound

theorem Reads.nothing (bound : ℕ) (s : List Char) : Reads bound s s :=
  ⟨[], rfl, nofun, zero_le _⟩

theorem Reads.append {m : ℕ} {ds s rest : List Char} (hds : ∀ c ∈ ds, c ∈ addrChars)
    (hlength : ds.length ≤ m) (h : Reads n s rest) : Reads (m + n) (ds ++ s) rest := by
  obtain ⟨read, rfl, hread, hbound⟩ := h
  refine ⟨ds ++ read, (append_assoc _ _ _).symm, ?_, ?_⟩
  · exact forall_mem_append.mpr ⟨hds, hread⟩
  · rw [length_append]
    omega

theorem Reads.mono {m : ℕ} {s rest : List Char} (h : Reads m s rest) (hle : m ≤ n) :
    Reads n s rest := by
  obtain ⟨read, hs, hread, hbound⟩ := h
  exact ⟨read, hs, hread, hbound.trans hle⟩

/-- **What `parseGroups` reads**: at most six characters for each group that is left, and four
octets at the end. -/
theorem parseGroups_eq_ok {fuel : ℕ} {ip ip' : List ℕ} {ellipsis ellipsis' : Option ℕ}
    {s rest : List Char} (h : parseGroups input fuel ip ellipsis s = .ok (ip', ellipsis', rest)) :
    Reads (6 * fuel + 15) s rest := by
  induction fuel generalizing ip ellipsis s with
  | zero =>
    cases h
    exact Reads.nothing _ _
  | succ fuel ih =>
    unfold parseGroups at h
    cases hscan : scanGroup input s 0 0 s with
    | error e =>
      rw [hscan] at h
      cases h
    | ok out =>
      obtain ⟨off, acc, left⟩ := out
      rw [hscan] at h
      dsimp only at h
      obtain ⟨ds, rfl, hds, hlength⟩ := scanGroup_eq_ok (by omega) hscan
      have hgroup : ds.length ≤ 4 := by omega
      rw [if_neg (fun hnone => by rw [if_pos hnone] at h; exact nomatch h)] at h
      split at h
      · -- the last group
        cases h
        exact ((Reads.nothing 0 []).append hds hgroup).mono (by omega)
      · -- four octets, read again from the first digit
        rename_i tail
        split_ifs at h
        cases hfields : parseIPv4Fields input 0 0 [] true false (ds ++ '.' :: tail) with
        | error e =>
          rw [hfields] at h
          cases h
        | ok octets =>
          rw [hfields] at h
          cases h
          obtain ⟨hall, hoctets⟩ := parseIPv4Fields_eq_ok FieldShape.start (zero_le _) hfields
          exact ⟨_, (append_nil _).symm, hall, hoctets.trans (by simp)⟩
      · -- a colon, or two, and more groups
        rename_i tail
        have hcolon : ∀ c ∈ [':'], c ∈ addrChars := forall_mem_of_all (by decide)
        have hcolons : ∀ c ∈ [':', ':'], c ∈ addrChars := forall_mem_of_all (by decide)
        split at h
        · cases h
        · rename_i more
          have hmore : Reads (6 * fuel + 15) more rest := by
            split_ifs at h with hellipsis hempty
            · cases h
              rw [isEmpty_iff.mp hempty]
              exact Reads.nothing _ _
            · exact ih h
          have hread := (hmore.append hcolons le_rfl).append hds hgroup
          exact hread.mono (by simp; omega)
        · have hread := ((ih h).append hcolon le_rfl).append hds hgroup
          exact hread.mono (by simp; omega)
      · cases h

/-! ### Addresses and prefixes -/

/-- The text of an address without a zone. -/
structure AddrText (cs : List Char) : Prop where
  ne_nil : cs ≠ []
  mem : ∀ c ∈ cs, c ∈ addrChars
  length_le : cs.length ≤ 65

theorem AddrText.of_reads (h : Reads 65 cs []) (hne : cs ≠ []) : AddrText cs := by
  obtain ⟨read, hcs, hread, hlength⟩ := h
  rw [append_nil] at hcs
  subst hcs
  exact ⟨hne, hread, hlength⟩

theorem takeWhile_percent (h : '%' ∉ cs) : cs.takeWhile (· != '%') = cs := by
  rw [takeWhile_eq_self_iff]
  intro c hc
  rw [bne_iff_ne]
  rintro rfl
  exact h hc

theorem length_takeWhile_percent (h : '%' ∈ cs) : (cs.takeWhile (· != '%')).length < cs.length := by
  by_contra hnot
  have hself : cs.takeWhile (· != '%') = cs :=
    (takeWhile_sublist _).eq_of_length_le (not_lt.mp hnot)
  have hall := takeWhile_eq_self_iff.mp hself '%' h
  exact absurd rfl (bne_iff_ne.mp hall)

variable {addr : Addr}

theorem parseIPv6_eq_ok (h : parseIPv6 input = .ok addr) :
    Reads 65 (input.toList.takeWhile (· != '%')) [] ∧ ∃ octets zone,
      addr = .v6 octets (String.ofList zone) ∧ ('%' ∈ input.toList → zone ≠ []) := by
  unfold parseIPv6 at h
  extract_lets s zone at h
  split at h
  · cases h
  rename_i hzone
  have hnonempty : '%' ∈ input.toList → zone ≠ [] := fun hmem hnil =>
    hzone ⟨length_takeWhile_percent hmem, isEmpty_iff.mpr hnil⟩
  split at h
  rename_i ellipsis left hleft
  -- the address may begin with an ellipsis
  have hstart : ∀ n, Reads n left [] → Reads (2 + n) s [] := by
    intro n hread
    clear_value s
    split at hleft
    · rename_i rest
      cases hleft
      have hcolons : ∀ c ∈ [':', ':'], c ∈ addrChars := forall_mem_of_all (by decide)
      exact hread.append hcolons le_rfl
    · cases hleft
      exact hread.mono (by omega)
  split_ifs at h with hall
  · -- the ellipsis alone
    cases h
    rw [isEmpty_iff.mp hall.2] at hstart
    exact ⟨(hstart 0 (Reads.nothing 0 [])).mono (by omega), _, zone, rfl, hnonempty⟩
  · cases hgroups : parseGroups input 8 [] ellipsis left with
    | error e =>
      rw [hgroups] at h
      cases h
    | ok out =>
      obtain ⟨ip, ellipsis', rest⟩ := out
      rw [hgroups] at h
      dsimp only at h
      split_ifs at h with hrest hshort hellipsis
      · obtain rfl := isEmpty_iff.mp hrest
        refine ⟨hstart _ (parseGroups_eq_ok hgroups), ?_⟩
        cases ellipsis' with
        | none => cases h
        | some e =>
          cases h
          exact ⟨_, zone, rfl, hnonempty⟩
      · obtain rfl := isEmpty_iff.mp hrest
        cases h
        exact ⟨hstart _ (parseGroups_eq_ok hgroups), _, zone, rfl, hnonempty⟩

theorem parseAddr_eq_ok (h : parseAddr input = .ok addr) :
    AddrText input.toList ∨
      ∃ octets zone, addr = .v6 octets zone ∧ zone ≠ "" ∧ '%' ∈ input.toList := by
  unfold parseAddr at h
  split at h
  · -- four octets
    rename_i hfind
    cases hfields : parseIPv4Fields input 0 0 [] true false input.toList with
    | error e =>
      rw [hfields] at h
      cases h
    | ok octets =>
      obtain ⟨hall, hlength⟩ := parseIPv4Fields_eq_ok FieldShape.start (zero_le _) hfields
      exact .inl ⟨ne_nil_of_mem (mem_of_find?_eq_some hfind), hall, hlength.trans (by simp)⟩
  · rename_i hfind
    have hne := ne_nil_of_mem (mem_of_find?_eq_some hfind)
    obtain ⟨hread, octets, zone, rfl, hzone⟩ := parseIPv6_eq_ok h
    by_cases hpercent : '%' ∈ input.toList
    · refine .inr ⟨octets, _, rfl, fun hempty => hzone hpercent ?_, hpercent⟩
      exact String.ofList_eq_empty_iff.mp hempty
    · rw [takeWhile_percent hpercent] at hread
      exact .inl (AddrText.of_reads hread hne)
  · cases h
  · cases h

/-- The text of a prefix length. -/
structure BitsText (cs : List Char) : Prop where
  ne_nil : cs ≠ []
  mem : ∀ c ∈ cs, c ∈ digitChars
  length_le : cs.length ≤ 3

theorem atoi_eq_some {n : ℤ} (hminus : cs.head? ≠ some '-') (hplus : cs.head? ≠ some '+')
    (h : atoi (String.ofList cs) = some n) :
    cs ≠ [] ∧ ∃ m : ℕ, digits? 0 cs = some m ∧ n = m := by
  unfold atoi at h
  rw [String.toList_ofList] at h
  split at h
  rename_i sign body hbody
  split at hbody
  · exact absurd rfl hminus
  · exact absurd rfl hplus
  · cases hbody
    split_ifs at h with hempty
    obtain ⟨m, hm, h⟩ := bind_eq_some_iff.mp h
    dsimp only at h
    split_ifs at h
    refine ⟨fun hnil => hempty (isEmpty_iff.mpr hnil), m, hm, ?_⟩
    rw [← Option.some.inj h, one_mul]

theorem pow_le_of_digits? (hc : '1' ≤ c) (h : digits? 0 (c :: cs) = some n) :
    10 ^ cs.length ≤ n := by
  obtain ⟨d, hd, h⟩ := bind_eq_some_iff.mp h
  have hpos : 1 ≤ d := by
    unfold digit? at hd
    split_ifs at hd
    have hle : 49 ≤ c.toNat := hc
    have := Option.some.inj hd
    omega
  calc 10 ^ cs.length = 1 * 10 ^ cs.length := (one_mul _).symm
    _ ≤ (0 * 10 + d) * 10 ^ cs.length := mul_le_mul_right _ (by omega)
    _ ≤ n := (digits?_eq_some h).2

theorem atoi_sign (h : c = '-' ∨ c = '+') : atoi (String.ofList [c]) = none := by
  rcases h with rfl | rfl <;> decide

variable {out : Addr × ℕ}

theorem prefixBits_eq_ok {badBits : String} {maxBits : ℕ} {bits : List Char} (hmax : maxBits ≤ 128)
    (h : parsePrefix.prefixBits input addr maxBits badBits bits = .ok out) : BitsText bits := by
  unfold parsePrefix.prefixBits at h
  split_ifs at h with hzero
  cases hvalue : atoi (String.ofList bits) with
  | none =>
    rw [hvalue] at h
    cases h
  | some n =>
    rw [hvalue] at h
    dsimp only at h
    split_ifs at h with hrange
    -- more than one character begin with 1 to 9
    have hfirst : ∀ c rest, bits = c :: rest → rest ≠ [] → '1' ≤ c := by
      rintro c rest rfl hrest
      by_contra hlt
      refine hzero ⟨?_, fun hany => hlt ?_⟩
      · have := length_pos_of_ne_nil hrest
        rw [length_cons]
        omega
      · exact of_decide_eq_true (Bool.and_eq_true_iff.mp hany).1
    have hsign : ∀ c, c = '-' ∨ c = '+' → bits.head? ≠ some c := by
      intro c hc hhead
      obtain ⟨rest, rfl⟩ := head?_eq_some_iff.mp hhead
      by_cases hrest : rest = []
      · rw [hrest, atoi_sign hc] at hvalue
        cases hvalue
      · have hle := hfirst c rest rfl hrest
        rcases hc with rfl | rfl <;> exact absurd hle (by decide)
    obtain ⟨hne, m, hm, rfl⟩ := atoi_eq_some (hsign _ (.inl rfl)) (hsign _ (.inr rfl)) hvalue
    refine ⟨hne, (digits?_eq_some hm).1, ?_⟩
    by_contra hlong
    obtain ⟨c, rest, rfl⟩ := exists_cons_of_ne_nil hne
    have hrest : 3 ≤ rest.length := by
      rw [length_cons] at hlong
      omega
    have hpow := pow_le_of_digits? (hfirst c rest rfl (length_pos_iff.mp (by omega))) hm
    have hthousand : 10 ^ 3 ≤ 10 ^ rest.length := Nat.pow_le_pow_right (by decide) hrest
    omega

theorem takeWhile_append_cons (h : c ∈ cs) :
    cs.takeWhile (· != c) ++ c :: (cs.dropWhile (· != c)).drop 1 = cs := by
  induction cs with
  | nil => cases h
  | cons b cs ih =>
    by_cases hb : b = c
    · subst hb
      simp
    · have hmem := (mem_cons.mp h).resolve_left (Ne.symm hb)
      have hne : (b != c) = true := bne_iff_ne.mpr hb
      rw [takeWhile_cons, dropWhile_cons, if_pos hne, if_pos hne, cons_append, ih hmem]

theorem parsePrefix_eq_ok (h : parsePrefix input = .ok out) :
    ∃ head bits, input.toList = head ++ '/' :: bits ∧ AddrText head ∧ BitsText bits := by
  unfold parsePrefix at h
  extract_lets reversed bits badBits head at h
  split_ifs at h with hslash
  have hinput : input.toList = head.toList ++ '/' :: bits := by
    have hmem : '/' ∈ reversed := mem_reverse.mpr (contains_iff_mem.mp hslash)
    have hcut := congrArg List.reverse (takeWhile_append_cons hmem)
    rw [reverse_reverse] at hcut
    simpa [head, bits] using hcut.symm
  cases haddr : parseAddr head with
  | error e =>
    rw [haddr] at h
    cases h
  | ok addr =>
    rw [haddr] at h
    refine ⟨head.toList, bits, hinput, ?_⟩
    cases addr with
    | v4 octets =>
      refine ⟨(parseAddr_eq_ok haddr).resolve_right ?_, prefixBits_eq_ok (by omega) h⟩
      rintro ⟨octets', zone, heq, -⟩
      cases heq
    | v6 octets zone =>
      dsimp only at h
      split_ifs at h with hzone
      refine ⟨(parseAddr_eq_ok haddr).resolve_right ?_, prefixBits_eq_ok le_rfl h⟩
      rintro ⟨octets', zone', heq, hne, -⟩
      cases heq
      exact hne (not_not.mp hzone)

end Go
