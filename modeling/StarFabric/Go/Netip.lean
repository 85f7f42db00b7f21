import StarFabric.Go.Basic

/-!
# Package `net/netip`: textual addresses and prefixes

`parseAddr` and `parsePrefix` follow the standard parsers character by
character, error texts included. Octets and groups are natural numbers, an
address is the list of its octets together with its zone. `atoi` is
`strconv.Atoi`, which the prefix length and the address labels go through.
-/

namespace Go

def digit? (c : Char) : Option ℕ := if '0' ≤ c ∧ c ≤ '9' then some (c.toNat - 48) else none

def hexDigit? (c : Char) : Option ℕ :=
  if '0' ≤ c ∧ c ≤ '9' then some (c.toNat - 48)
  else if 'a' ≤ c ∧ c ≤ 'f' then some (c.toNat - 87)
  else if 'A' ≤ c ∧ c ≤ 'F' then some (c.toNat - 55)
  else none

def digits? : ℕ → List Char → Option ℕ
  | acc, [] => some acc
  | acc, c :: rest => (digit? c).bind fun d => digits? (acc * 10 + d) rest

/-- `strconv.Atoi` on 64-bit integers: an optional sign, then at least one digit,
within range. -/
def atoi (s : String) : Option ℤ :=
  let (sign, body) : ℤ × List Char := match s.toList with
    | '-' :: rest => (-1, rest)
    | '+' :: rest => (1, rest)
    | all => (1, all)
  if body.isEmpty then none
  else (digits? 0 body).bind fun n =>
    let value := sign * (n : ℤ)
    if -2 ^ 63 ≤ value ∧ value < 2 ^ 63 then some value else none

/-- A `netip.Addr`: four octets, or sixteen octets and a zone. -/
inductive Addr where
  | v4 (octets : List ℕ)
  | v6 (octets : List ℕ) (zone : String)
  deriving DecidableEq, Repr

def Addr.is6 : Addr → Bool
  | .v4 _ => false
  | .v6 _ _ => true

def parseAddrError (input msg : String) (rest : List Char := []) : String :=
  "ParseAddr(" ++ quote input ++ "): " ++ msg ++
    if rest.isEmpty then "" else " (at " ++ quote (String.ofList rest) ++ ")"

/-- `parseIPv4Fields`. The flags say whether no character was read yet and
whether the last one was a dot. -/
def parseIPv4Fields (input : String) (val digLen : ℕ) (fields : List ℕ) (first dot : Bool) :
    List Char → Except String (List ℕ)
  | [] =>
    if fields.length < 3 then .error (parseAddrError input "IPv4 address too short")
    else .ok (fields ++ [val])
  | c :: rest =>
    match digit? c with
    | some d =>
      if digLen = 1 ∧ val = 0 then
        .error (parseAddrError input "IPv4 field has octet with leading zero")
      else if 255 < val * 10 + d then
        .error (parseAddrError input "IPv4 field has value >255")
      else parseIPv4Fields input (val * 10 + d) (digLen + 1) fields false false rest
    | none =>
      if c = '.' then
        if first ∨ rest.isEmpty ∨ dot then
          .error (parseAddrError input "IPv4 field must have at least one digit" (c :: rest))
        else if fields.length = 3 then .error (parseAddrError input "IPv4 address too long")
        else parseIPv4Fields input 0 0 (fields ++ [val]) false true rest
      else .error (parseAddrError input "unexpected character" (c :: rest))

/-- The hexadecimal digits in front of `s`: how many, their value and what
follows. More than four are an error. -/
def scanGroup (input : String) (s : List Char) :
    ℕ → ℕ → List Char → Except String (ℕ × ℕ × List Char)
  | off, acc, [] => .ok (off, acc, [])
  | off, acc, c :: rest =>
    match hexDigit? c with
    | none => .ok (off, acc, c :: rest)
    | some d =>
      if 3 < off then
        .error (parseAddrError input "each group must have 4 or less digits" s)
      else scanGroup input s (off + 1) (acc * 16 + d) rest

/-- The loop of `parseIPv6` over groups, at most `fuel` more of them. It returns
the octets read, where the ellipsis stood and the text left over. -/
def parseGroups (input : String) :
    ℕ → List ℕ → Option ℕ → List Char → Except String (List ℕ × Option ℕ × List Char)
  | 0, ip, ellipsis, s => .ok (ip, ellipsis, s)
  | fuel + 1, ip, ellipsis, s =>
    match scanGroup input s 0 0 s with
    | .error e => .error e
    | .ok (off, acc, rest) =>
      if off = 0 then
        .error (parseAddrError input "each colon-separated field must have at least one digit" s)
      else match rest with
      | [] => .ok (ip ++ [acc / 256, acc % 256], ellipsis, [])
      | '.' :: _ =>
        if ellipsis.isNone ∧ ip.length ≠ 12 then
          .error (parseAddrError input
            "embedded IPv4 address must replace the final 2 fields of the address" s)
        else if 16 < ip.length + 4 then
          .error (parseAddrError input
            "too many hex fields to fit an embedded IPv4 at the end of the address" s)
        else match parseIPv4Fields input 0 0 [] true false s with
          | .error e => .error e
          | .ok octets => .ok (ip ++ octets, ellipsis, [])
      | ':' :: tail =>
        let ip := ip ++ [acc / 256, acc % 256]
        match tail with
        | [] =>
          .error (parseAddrError input "colon must be followed by more characters" rest)
        | ':' :: more =>
          if ellipsis.isSome then
            .error (parseAddrError input "multiple :: in address" tail)
          else if more.isEmpty then .ok (ip, some ip.length, [])
          else parseGroups input fuel ip (some ip.length) more
        | _ => parseGroups input fuel ip ellipsis tail
      | _ => .error (parseAddrError input "unexpected character, want colon" rest)

def parseIPv6 (input : String) : Except String Addr :=
  let s := input.toList.takeWhile (· != '%')
  let zone := (input.toList.dropWhile (· != '%')).drop 1
  if s.length < input.toList.length ∧ zone.isEmpty then
    .error (parseAddrError input "zone must be a non-empty string")
  else
    let (ellipsis, s) : Option ℕ × List Char := match s with
      | ':' :: ':' :: rest => (some 0, rest)
      | all => (none, all)
    if ellipsis.isSome ∧ s.isEmpty then
      .ok (.v6 (List.replicate 16 0) (String.ofList zone))
    else match parseGroups input 8 [] ellipsis s with
    | .error e => .error e
    | .ok (ip, ellipsis, rest) =>
      if ¬ rest.isEmpty then .error (parseAddrError input "trailing garbage after address" rest)
      else if ip.length < 16 then
        match ellipsis with
        | none => .error (parseAddrError input "address string too short")
        | some e =>
          .ok (.v6 (ip.take e ++ List.replicate (16 - ip.length) 0 ++ ip.drop e)
            (String.ofList zone))
      else if ellipsis.isSome then
        .error (parseAddrError input "the :: must expand to at least one field of zeros")
      else .ok (.v6 ip (String.ofList zone))

/-- `netip.ParseAddr`. The first dot, colon or percent sign decides the family. -/
def parseAddr (input : String) : Except String Addr :=
  match input.toList.find? fun c => c == '.' || c == ':' || c == '%' with
  | some '.' => (parseIPv4Fields input 0 0 [] true false input.toList).map .v4
  | some ':' => parseIPv6 input
  | some _ => .error (parseAddrError input "missing IPv6 address")
  | none => .error (parseAddrError input "unable to parse IP")

def parsePrefixError (input msg : String) : String :=
  "netip.ParsePrefix(" ++ quote input ++ "): " ++ msg

/-- `netip.ParsePrefix`: an address without zone, the last slash and a length
without sign or leading zero. -/
def parsePrefix (input : String) : Except String (Addr × ℕ) :=
  let reversed := input.toList.reverse
  let bits := (reversed.takeWhile (· != '/')).reverse
  let badBits := "bad bits after slash: " ++ quote (String.ofList bits)
  if ¬ input.toList.contains '/' then .error (parsePrefixError input "no '/'")
  else
    let head := String.ofList ((reversed.dropWhile (· != '/')).drop 1).reverse
    match parseAddr head with
    | .error e => .error (parsePrefixError input e)
    | .ok addr =>
      match addr with
      | .v6 _ zone =>
        if zone ≠ "" then
          .error (parsePrefixError input "IPv6 zones cannot be present in a prefix")
        else prefixBits input addr 128 badBits bits
      | .v4 _ => prefixBits input addr 32 badBits bits
where
  /-- The length after the slash, at most `maxBits`. -/
  prefixBits (input : String) (addr : Addr) (maxBits : ℕ) (badBits : String)
      (bits : List Char) : Except String (Addr × ℕ) :=
    if 1 < bits.length ∧ ¬ bits.head?.any (fun c => '1' ≤ c && c ≤ '9') then
      .error (parsePrefixError input badBits)
    else match atoi (String.ofList bits) with
    | none => .error (parsePrefixError input badBits)
    | some n =>
      if n < 0 ∨ (maxBits : ℤ) < n then
        .error (parsePrefixError input
          ("prefix length out of range: " ++ quote (String.ofList bits)))
      else .ok (addr, n.toNat)

def dotted (octets : List ℕ) : String := ".".intercalate (octets.map toString)

end Go
