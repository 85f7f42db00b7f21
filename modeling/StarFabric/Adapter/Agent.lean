import StarFabric.Adapter.Frr
import StarFabric.Go.NetipText
import StarFabric.Lib.Fold
import StarFabric.Lib.Patterns

/-!
# The execution agent of the FRR adapter

`lab/platform/frr_agent.py`: an agent runs the arguments of `vtysh` that the adapter sends, after
`validate` has accepted them by a pattern and by their number and length. The two agree on every
address without a zone, for which the pattern has no character, and on up to 2046 routes.
-/

namespace StarFabric.Agent

open ExceptFold Frr Go List Nat Patterns RegularExpression

/-! ### `validate` -/

/-- The elements with an even index, `args[0::2]`. -/
def everyOther {α : Type} : List α → List α
  | [] => []
  | [a] => [a]
  | a :: _ :: rest => a :: everyOther rest

def destinationChars : List Char := "0123456789abcdefABCDEF:./".toList

/-- `(?:no )?(?:ip|ipv6) route [0-9a-fA-F:./]+ [0-9a-fA-F:.]+(?: [0-9]+)?`. -/
def routePattern : RegularExpression Char :=
  optional (word "no ".toList) * ((word "ip".toList + word "ipv6".toList) *
    (word " route ".toList * (many1 (oneOf destinationChars) *
      (word " ".toList * (many1 (oneOf addrChars) *
        optional (word " ".toList * many1 (oneOf digitChars)))))))

def fixed : List String :=
  ["show version", "show ip route static json", "show ipv6 route static json",
    "configure terminal", "end"]

def checkCommand (value : String) : Except String Unit :=
  if value ∈ fixed ∨ routePattern.rmatch value.toList = true then .ok ()
  else .error "unsupported FRR adapter command"

/-- `validate`. The function `ipAddress` is `ipaddress.ip_address`, with the error it raises. -/
def validate (ipAddress : String → Except String Unit) (program : String) (args : List String) :
    Except String Unit :=
  if args = [] ∨ 4096 < args.length ∨ (∃ a ∈ args, 512 < a.length) then
    .error "invalid argument list"
  else if program = "ping" then
    if args.dropLast ∉ [["-n", "-c", "1", "-W", "1"], ["-n", "-c", "1", "-W", "1", "-6"]] then
      .error "only one-packet probes are allowed"
    else ipAddress (args.getLast?.getD "")
  else if program = "vtysh" then
    if args.length % 2 ≠ 0 ∨ (∃ a ∈ everyOther args, a ≠ "-c") then
      .error "only vtysh -c commands are allowed"
    else (everyOther (args.drop 1)).forM checkCommand
  else .error "unsupported executable"

/-! ### The arguments of the adapter -/

def values (batch : List Command) : List String :=
  ["configure terminal"] ++ batch.map (fun c => render c.route c.remove) ++ ["end"]

theorem arguments_eq (batch : List Command) :
    arguments batch = (values batch).flatMap (["-c", ·]) := by
  unfold arguments values
  rw [flatMap_append, flatMap_append, flatMap_map]
  rfl

theorem everyOther_pairs {α : Type} (a : α) (l : List α) :
    everyOther (l.flatMap ([a, ·])) = l.map fun _ => a := by
  induction l with
  | nil => rfl
  | cons b l ih => exact congrArg (a :: ·) ih

theorem everyOther_drop_pairs {α : Type} (a : α) (l : List α) :
    everyOther ((l.flatMap ([a, ·])).drop 1) = l := by
  induction l with
  | nil => rfl
  | cons b l ih =>
    cases l with
    | nil => rfl
    | cons c l => exact congrArg (b :: ·) ih

section Batch

variable {batch : List Command} {P : String → Prop}

theorem forall_values (hconfigure : P "configure terminal") (hend : P "end") :
    (∀ value ∈ values batch, P value) ↔ ∀ c ∈ batch, P (render c.route c.remove) := by
  simp [values, or_imp, forall_and, hconfigure, hend]

theorem forall_arguments (hflag : P "-c") :
    (∀ a ∈ arguments batch, P a) ↔ ∀ value ∈ values batch, P value := by
  rw [arguments_eq]
  constructor
  · exact fun h value hvalue => h value (mem_flatMap.mpr ⟨value, hvalue, by simp⟩)
  · intro h a ha
    obtain ⟨value, hvalue, ha⟩ := mem_flatMap.mp ha
    rcases mem_pair.mp ha with rfl | rfl
    · exact hflag
    · exact h _ hvalue

/-- **What `validate` asks of the arguments of the adapter**: that there are not too many of them,
and that each command is short and known. -/
theorem validate_arguments {ipAddress : String → Except String Unit} :
    validate ipAddress "vtysh" (arguments batch) = .ok () ↔ batch.length ≤ 2046 ∧
      (∀ c ∈ batch, (render c.route c.remove).length ≤ 512) ∧
      ∀ c ∈ batch, checkCommand (render c.route c.remove) = .ok () := by
  have hlength := length_arguments batch
  have hshort : (∀ a ∈ arguments batch, a.length ≤ 512) ↔
      ∀ c ∈ batch, (render c.route c.remove).length ≤ 512 := by
    rw [forall_arguments (by decide), forall_values (by decide) (by decide)]
  have hcommands : (everyOther ((arguments batch).drop 1)).forM checkCommand = .ok () ↔
      ∀ c ∈ batch, checkCommand (render c.route c.remove) = .ok () := by
    rw [arguments_eq, everyOther_drop_pairs, forM_eq_ok_iff]
    exact forall_values (if_pos (.inl (by decide))) (if_pos (.inl (by decide)))
  have hflags : ¬ ((arguments batch).length % 2 ≠ 0 ∨
      ∃ a ∈ everyOther (arguments batch), a ≠ "-c") := by
    rw [arguments_eq, everyOther_pairs, ← arguments_eq]
    rintro (hodd | ⟨a, ha, hflag⟩)
    · omega
    · obtain ⟨-, -, rfl⟩ := mem_map.mp ha
      exact hflag rfl
  unfold validate
  rw [if_neg (by decide : ¬ "vtysh" = "ping"), if_pos rfl, if_neg hflags, ← hcommands, ← hshort]
  split_ifs with hargs
  · -- too many arguments, or one that is too long
    refine iff_of_false nofun ?_
    rintro ⟨hfew, hall, -⟩
    rcases hargs with hnil | hmany | ⟨a, ha, hlong⟩
    · rw [hnil, length_nil] at hlength
      omega
    · omega
    · exact absurd (hall a ha) (not_le.mpr hlong)
  · rw [not_or, not_or] at hargs
    obtain ⟨-, hfew, hall⟩ := hargs
    refine ⟨fun h => ⟨by omega, fun a ha => not_lt.mp fun hlong => hall ⟨a, ha, hlong⟩, h⟩, ?_⟩
    rintro ⟨-, -, h⟩
    exact h

end Batch

/-! ### The commands of routes that `Prepare` accepts -/

theorem checkRoute_eq_ok {name : String} {route : RouteOperation}
    (h : Device.checkRoute name route = .ok ()) :
    (∃ head bits, route.routePrefix.toList = head ++ '/' :: bits ∧ AddrText head ∧ BitsText bits) ∧
      (AddrText route.nextHop.toList ∨ '%' ∈ route.nextHop.toList) ∧
      1 ≤ route.metric ∧ route.metric ≤ 255 := by
  unfold Device.checkRoute at h
  split at h
  · cases h
  cases hcidr : parsePrefix route.routePrefix with
  | error e =>
    rw [hcidr] at h
    cases h
  | ok dest =>
    rw [hcidr] at h
    cases hhop : parseAddr route.nextHop with
    | error e =>
      rw [hhop] at h
      cases h
    | ok addr =>
      rw [hhop] at h
      split_ifs at h with hmetric
      refine ⟨parsePrefix_eq_ok hcidr, ?_, by omega⟩
      refine (parseAddr_eq_ok hhop).imp_right ?_
      rintro ⟨octets, zone, -, -, hpercent⟩
      exact hpercent

theorem toString_metric {m : ℤ} (hpos : 1 ≤ m) (hle : m ≤ 255) : BitsText (toString m).toList := by
  obtain ⟨n, rfl⟩ := Int.eq_ofNat_of_zero_le (show 0 ≤ m by omega)
  have htext : (toString (n : ℤ)).toList = toDigits 10 n := toList_repr
  rw [htext]
  refine ⟨toDigits_ne_nil, fun c hc => ?_, ?_⟩
  · have hdigit : c.isDigit = true := isDigit_of_mem_toDigits (by decide) (by decide) hc
    rw [Char.isDigit, Bool.and_eq_true, decide_eq_true_eq, decide_eq_true_eq] at hdigit
    exact mem_of_between 48 57 (by decide) hdigit.1 hdigit.2
  · exact (length_toDigits_le_iff (by decide) (by decide)).mpr (by omega)

theorem toList_render (route : RouteOperation) (remove : Bool) : ∃ no family,
    (no = [] ∨ no = "no ".toList) ∧ (family = "ip".toList ∨ family = "ipv6".toList) ∧
      (render route remove).toList = no ++ (family ++ (" route ".toList ++
        (route.routePrefix.toList ++ (" ".toList ++ (route.nextHop.toList ++
          (" ".toList ++ (toString route.metric).toList)))))) := by
  have hcommand : ∃ command, (command = "ip route" ∨ command = "ipv6 route") ∧
      render route remove = (if remove then "no " ++ command else command) ++ " " ++
        route.routePrefix ++ " " ++ route.nextHop ++ " " ++ toString route.metric := by
    unfold render
    cases parsePrefix route.routePrefix with
    | error e => exact ⟨_, .inl rfl, rfl⟩
    | ok dest =>
      obtain ⟨addr, bits⟩ := dest
      cases addr with
      | v4 octets => exact ⟨_, .inl rfl, rfl⟩
      | v6 octets zone => exact ⟨_, .inr rfl, rfl⟩
  obtain ⟨command, hfamily, hrender⟩ := hcommand
  -- the word `route` belongs to the part that all commands share
  have hcut : ∃ family, (family = "ip".toList ∨ family = "ipv6".toList) ∧
      command.toList ++ " ".toList = family ++ " route ".toList := by
    rcases hfamily with rfl | rfl
    · exact ⟨_, .inl rfl, by decide⟩
    · exact ⟨_, .inr rfl, by decide⟩
  obtain ⟨family, hfamily, hcut⟩ := hcut
  refine ⟨if remove then "no ".toList else [], family, ?_, hfamily, ?_⟩
  · cases remove with
    | false => exact .inl rfl
    | true => exact .inr rfl
  · have hassoc : ∀ rest : List Char,
        command.toList ++ (" ".toList ++ rest) = family ++ (" route ".toList ++ rest) := by
      intro rest
      rw [← append_assoc, hcut, append_assoc]
    rw [hrender]
    cases remove with
    | false =>
      simp only [Bool.false_eq_true, if_false, String.toList_append, append_assoc,
        nil_append, hassoc]
    | true => simp only [if_true, String.toList_append, append_assoc, hassoc]

theorem rmatch_routePattern {no family destination hop metric : List Char}
    (hno : no = [] ∨ no = "no ".toList) (hfamily : family = "ip".toList ∨ family = "ipv6".toList)
    (hdestination : destination ≠ [] ∧ ∀ c ∈ destination, c ∈ destinationChars)
    (hhop : hop ≠ [] ∧ ∀ c ∈ hop, c ∈ addrChars)
    (hmetric : metric ≠ [] ∧ ∀ c ∈ metric, c ∈ digitChars) :
    routePattern.rmatch (no ++ (family ++ (" route ".toList ++ (destination ++ (" ".toList ++
      (hop ++ (" ".toList ++ metric))))))) = true := by
  refine (mul_rmatch_iff _ _ _).mpr ⟨no, _, rfl, rmatch_optional.mpr ?_, ?_⟩
  · exact hno.imp_right (rmatch_word _).mpr
  refine (mul_rmatch_iff _ _ _).mpr ⟨family, _, rfl, (add_rmatch_iff _ _ _).mpr ?_, ?_⟩
  · exact hfamily.imp (rmatch_word _).mpr (rmatch_word _).mpr
  refine (mul_rmatch_iff _ _ _).mpr ⟨_, _, rfl, (rmatch_word _).mpr rfl, ?_⟩
  refine (mul_rmatch_iff _ _ _).mpr ⟨destination, _, rfl, ?_, ?_⟩
  · exact (rmatch_many1_oneOf _).mpr hdestination
  refine (mul_rmatch_iff _ _ _).mpr ⟨_, _, rfl, (rmatch_word _).mpr rfl, ?_⟩
  refine (mul_rmatch_iff _ _ _).mpr ⟨hop, _, rfl, (rmatch_many1_oneOf _).mpr hhop, ?_⟩
  refine rmatch_optional.mpr (.inr ?_)
  exact (mul_rmatch_iff _ _ _).mpr
    ⟨_, metric, rfl, (rmatch_word _).mpr rfl, (rmatch_many1_oneOf _).mpr hmetric⟩

theorem percent_not_mem_symbols : '%' ∉ symbols routePattern := by decide

theorem checkCommand_percent {value : String} (h : '%' ∈ value.toList) :
    checkCommand value = .error "unsupported FRR adapter command" := by
  have hfixed : ∀ text ∈ fixed, '%' ∉ text.toList := by decide
  have hunknown : ¬ (value ∈ fixed ∨ routePattern.rmatch value.toList = true) := by
    rintro (hmem | hmatch)
    · exact hfixed value hmem h
    · exact percent_not_mem_symbols (mem_symbols hmatch _ h)
  exact if_neg hunknown

section Route

variable {name : String} {route : RouteOperation} {remove : Bool}

theorem checkCommand_render (h : Device.checkRoute name route = .ok ())
    (hzone : '%' ∉ route.nextHop.toList) :
    (render route remove).length ≤ 512 ∧ checkCommand (render route remove) = .ok () := by
  obtain ⟨⟨head, bits, hcidr, hhead, hbits⟩, hhop, hpos, hle⟩ := checkRoute_eq_ok h
  have hhop := hhop.resolve_right hzone
  have hmetric := toString_metric hpos hle
  obtain ⟨no, family, hno, hfamily, hrender⟩ := toList_render route remove
  constructor
  · -- 14 characters at most in front of the prefix
    have hnoLength : no.length ≤ 3 := by rcases hno with rfl | rfl <;> decide
    have hfamilyLength : family.length ≤ 4 := by rcases hfamily with rfl | rfl <;> decide
    have hheadLength := hhead.length_le
    have hbitsLength := hbits.length_le
    have hhopLength := hhop.length_le
    have hmetricLength := hmetric.length_le
    rw [← String.length_toList, hrender, hcidr]
    simp only [length_append, length_cons]
    have hroute : " route ".toList.length = 7 := by decide
    have hblank : " ".toList.length = 1 := by decide
    omega
  · have hdestination : ∀ c ∈ route.routePrefix.toList, c ∈ destinationChars := by
      have haddr : ∀ c ∈ addrChars, c ∈ destinationChars := forall_mem_of_all (by decide)
      have hslash : '/' ∈ destinationChars := by decide
      rw [hcidr]
      refine forall_mem_append.mpr ⟨fun c hc => haddr c (hhead.mem c hc), ?_⟩
      refine forall_mem_cons.mpr ⟨hslash, fun c hc => haddr c (digitChars_subset ?_)⟩
      exact hbits.mem c hc
    refine if_pos (.inr ?_)
    rw [hrender]
    refine rmatch_routePattern hno hfamily ⟨?_, hdestination⟩ ⟨hhop.ne_nil, hhop.mem⟩
      ⟨hmetric.ne_nil, hmetric.mem⟩
    rw [hcidr]
    exact append_ne_nil_of_right_ne_nil _ (cons_ne_nil _ _)

theorem percent_mem_render (hzone : '%' ∈ route.nextHop.toList) :
    '%' ∈ (render route remove).toList := by
  obtain ⟨no, family, -, -, hrender⟩ := toList_render route remove
  rw [hrender]
  simp only [mem_append, hzone, true_or, or_true]

end Route

/-! ### Batches -/

theorem route_mem_of_mem_commands {appliedPlanID : String} {current desired : List RouteOperation}
    {c : Command} (h : c ∈ commands appliedPlanID current desired) :
    c.route ∈ current ∨ c.route ∈ desired := by
  rcases mem_append.mp h with h | h
  · obtain ⟨route, hroute, rfl⟩ := mem_map.mp h
    exact .inl (mem_filter.mp hroute).1
  · obtain ⟨route, hroute, rfl⟩ := mem_map.mp h
    exact .inr (mem_filter.mp hroute).1

/-- `Prepare` accepts the routes, as those of a plan that is new to the device. -/
def Accepted (name : String) (routes : List RouteOperation) : Prop :=
  ∃ (d : Device) (plan : RoutePlan), d.name = name ∧ plan.routes = routes ∧
    plan.id ≠ d.appliedPlanID ∧ d.prepared plan.id = none ∧ (d.prepare plan).1 = .ok ()

theorem prepare_new {d : Device} {plan : RoutePlan} (hid : plan.id ≠ "")
    (hnew : plan.id ≠ d.appliedPlanID) (hprepared : d.prepared plan.id = none) :
    (d.prepare plan).1 = .ok () ↔ plan.routes.forM (Device.checkRoute d.name) = .ok () := by
  have hnone : ¬ (d.prepared plan.id).isSome = true := by
    rw [hprepared]
    exact Bool.false_ne_true
  unfold Device.prepare
  rw [if_neg hid, if_neg hnew, if_neg hnone]
  cases plan.routes.forM (Device.checkRoute d.name) with
  | ok _ => exact iff_of_true rfl rfl
  | error e => exact iff_of_false nofun nofun

theorem accepted_iff {name : String} {routes : List RouteOperation} :
    Accepted name routes ↔ ∀ route ∈ routes, Device.checkRoute name route = .ok () := by
  rw [← forM_eq_ok_iff]
  constructor
  · rintro ⟨d, plan, rfl, rfl, hnew, hprepared, h⟩
    have hid : plan.id ≠ "" := by
      intro hempty
      unfold Device.prepare at h
      rw [if_pos hempty] at h
      cases h
    exact (prepare_new hid hnew hprepared).mp h
  · intro h
    have hid : "p" ≠ "" := by decide
    exact ⟨{ name := name }, { id := "p", topologyVersion := 0, expiresAt := 0, routes := routes },
      rfl, rfl, hid, rfl, (prepare_new hid hid rfl).mpr h⟩

/-- **Which batches the agent accepts.** Let `Prepare` accept two lists of routes. The agent accepts
the arguments for the change from one to the other if and only if the change has at most 2046
commands, and none of them is for a next hop with a zone. -/
theorem validate_commands_iff {name : String} {current desired : List RouteOperation}
    (hcurrent : Accepted name current) (hdesired : Accepted name desired)
    (ipAddress : String → Except String Unit) (appliedPlanID : String) :
    validate ipAddress "vtysh" (arguments (commands appliedPlanID current desired)) = .ok () ↔
      (commands appliedPlanID current desired).length ≤ 2046 ∧
        ∀ c ∈ commands appliedPlanID current desired, '%' ∉ c.route.nextHop.toList := by
  have hchecked : ∀ c ∈ commands appliedPlanID current desired,
      Device.checkRoute name c.route = .ok () := by
    intro c hc
    rcases route_mem_of_mem_commands hc with hroute | hroute
    · exact accepted_iff.mp hcurrent _ hroute
    · exact accepted_iff.mp hdesired _ hroute
  rw [validate_arguments]
  constructor
  · rintro ⟨hlength, -, hknown⟩
    refine ⟨hlength, fun c hc hzone => ?_⟩
    have hunknown := (hknown c hc).symm.trans (checkCommand_percent (percent_mem_render hzone))
    cases hunknown
  · rintro ⟨hlength, hzones⟩
    exact ⟨hlength, fun c hc => (checkCommand_render (hchecked c hc) (hzones c hc)).1,
      fun c hc => (checkCommand_render (hchecked c hc) (hzones c hc)).2⟩

theorem validate_commands_next_hop :
    Accepted "r1" [toyRoute "2001:db8::2"] ∧ Accepted "r1" [toyRoute "2001:db8::3"] ∧
      validate (fun _ => .ok ()) "vtysh" (arguments
        (commands "p0" [toyRoute "2001:db8::2"] [toyRoute "2001:db8::3"])) = .ok () := by
  have hold : Accepted "r1" [toyRoute "2001:db8::2"] := accepted_iff.mpr (by decide +kernel)
  have hnew : Accepted "r1" [toyRoute "2001:db8::3"] := accepted_iff.mpr (by decide +kernel)
  refine ⟨hold, hnew, (validate_commands_iff hold hnew _ "p0").mpr ⟨?_, ?_⟩⟩
  · decide +kernel
  · decide +kernel

/-! ### A zone, and a long list -/

def networkRoute (network distance : ℕ) : RouteOperation where
  device := "r1"
  routePrefix := "10.0." ++ toString network ++ ".0/24"
  nextHop := "192.0.2.1"
  nextHopNode := ""
  metric := distance
  intentID := "i"
  pathRole := "primary"

def networkRoutes : List RouteOperation :=
  (List.range 9).flatMap fun network => (List.range 228).map fun k => networkRoute network (k + 1)

theorem accepted_networkRoutes : Accepted "r1" networkRoutes := by
  have hcidr : ∀ network, network < 9 →
      (parsePrefix ("10.0." ++ toString network ++ ".0/24")).toOption.isSome := by decide +kernel
  have hhop : (parseAddr "192.0.2.1").toOption.isSome := by decide +kernel
  refine accepted_iff.mpr fun route hroute => ?_
  obtain ⟨network, hnetwork, hroute⟩ := mem_flatMap.mp hroute
  obtain ⟨k, hk, rfl⟩ := mem_map.mp hroute
  obtain ⟨dest, hdest⟩ := exists_ok_of_isSome (hcidr network (mem_range.mp hnetwork))
  obtain ⟨addr, haddr⟩ := exists_ok_of_isSome hhop
  have hk := mem_range.mp hk
  unfold Device.checkRoute networkRoute
  dsimp only
  rw [if_neg (not_not.mpr rfl), hdest, haddr, if_neg (by omega)]

theorem validate_zone : validate (fun _ => .ok ()) "vtysh" (arguments
    (commands "" [] [toyRoute "fe80::1%eth0"])) = .error "unsupported FRR adapter command" := by
  have hvalues : everyOther ((arguments (commands "" [] [toyRoute "fe80::1%eth0"])).drop 1) =
      ["configure terminal", "ipv6 route 2001:db8:100::/64 fe80::1%eth0 100", "end"] := by
    decide +kernel
  have hframe : checkCommand "configure terminal" = .ok () := if_pos (.inl (by decide))
  have hzone : checkCommand "ipv6 route 2001:db8:100::/64 fe80::1%eth0 100" =
      .error "unsupported FRR adapter command" := checkCommand_percent (by decide)
  unfold validate
  rw [if_neg (by decide +kernel), if_neg (by decide), if_pos rfl, if_neg (by decide +kernel),
    hvalues, forM_cons_ok hframe, forM_cons_error hzone]

theorem validate_networkRoutes : validate (fun _ => .ok ()) "vtysh" (arguments
    (commands "" [] networkRoutes)) = .error "invalid argument list" := by
  have hlength : (commands "" [] networkRoutes).length = 2052 := by simp [commands, networkRoutes]
  refine if_pos (.inr (.inl ?_))
  rw [length_arguments, hlength]
  decide

/-- Two plans that `Prepare` accepts and the agent refuses, each the first of its device. In one of
them a next hop has a zone. The other one has 2052 routes. -/
theorem agent_refuses : Accepted "r1" [] ∧
    (Accepted "r1" [toyRoute "fe80::1%eth0"] ∧ validate (fun _ => .ok ()) "vtysh" (arguments
      (commands "" [] [toyRoute "fe80::1%eth0"])) = .error "unsupported FRR adapter command") ∧
    (Accepted "r1" networkRoutes ∧ validate (fun _ => .ok ()) "vtysh" (arguments
      (commands "" [] networkRoutes)) = .error "invalid argument list") := by
  have hzone : Accepted "r1" [toyRoute "fe80::1%eth0"] := accepted_iff.mpr (by decide +kernel)
  exact ⟨accepted_iff.mpr (by decide), ⟨hzone, validate_zone⟩,
    ⟨accepted_networkRoutes, validate_networkRoutes⟩⟩

end StarFabric.Agent
