import StarFabric.Onboard.World

/-!
# What a signature covers

The signed text of a manifest joins its fields with NUL characters, and a version may hold such
characters itself. No signed text belongs to two manifests that `stage` accepts.
-/

namespace StarFabric.Onboard

open EffectProgram

def nul : Char := '\x00'

/-- Only paths without NUL can be opened. -/
def OpensPaths {W : Type} (h : Handler iface W) : Prop :=
  ∀ path w bytes, (h (.readArtifact path) w).1 = .ok bytes → nul ∉ path.toList

/-- The digest is written with hexadecimal digits. -/
def Crypto.Hex (crypto : Crypto) : Prop :=
  ∀ bytes, ∀ c ∈ (crypto.sha256 bytes).toList, c ∈ "0123456789abcdef".toList

/-- The last separator of a text can be found from its end. -/
theorem append_nul_inj {xs ys t u : List Char} (ht : nul ∉ t) (hu : nul ∉ u)
    (h : xs ++ [nul] ++ t = ys ++ [nul] ++ u) : xs = ys ∧ t = u := by
  induction xs generalizing ys <;> cases ys <;> grind

theorem nul_not_mem_of_eqIgnoreAsciiCase {s t : String}
    (hs : ∀ c ∈ s.toList, c ∈ "0123456789abcdef".toList) (h : eqIgnoreAsciiCase s t = true) :
    nul ∉ t.toList := by
  intro hmem
  have hlower : nul.toLower ∈ s.toList.map Char.toLower := by
    rw [eq_of_beq h]
    exact List.mem_map_of_mem hmem
  obtain ⟨c, hc, heq⟩ := List.mem_map.mp hlower
  have hdigits : ("0123456789abcdef".toList.all fun c => c.toLower != nul.toLower) = true := by
    decide
  simpa [heq] using List.all_eq_true.mp hdigits c (hs c hc)

variable {W : Type} {h : Handler iface W} {crypto : Crypto} {m m' : UpdateManifest}
  {active active' : String} {w w' : W}

theorem ok_of_onOk {α β : Type} {p : Prog iface (Except IoError α)}
    {f : α → Prog iface (Except IoError β)} {b : β} (hrun : ((onOk p f).run h w).1 = .ok b) :
    ∃ a, (p.run h w).1 = .ok a ∧ ((f a).run h (p.run h w).2).1 = .ok b := by
  rw [onOk, Prog.run_bind] at hrun
  cases hp : (p.run h w).1 with
  | error e => simp [hp] at hrun
  | ok a => exact ⟨a, rfl, by simpa [hp] using hrun⟩

theorem accepted_of_stage (hopens : OpensPaths h) (hhex : crypto.Hex)
    (hstage : ((stage crypto m active).run h w).1 = .ok ()) :
    isSlot m.targetSlot = true ∧ nul ∉ m.artifact.toList ∧ nul ∉ m.sha256.toList := by
  unfold stage at hstage
  split at hstage
  · simp at hstage
  split at hstage
  · simp at hstage
  next hslot =>
    split at hstage
    · simp at hstage
    · obtain ⟨artifact, hread, hrest⟩ := ok_of_onOk hstage
      refine ⟨by simpa using fun h => hslot (.inl h), hopens _ _ _ hread, ?_⟩
      split at hrest
      · simp at hrest
      next hdigest =>
        exact nul_not_mem_of_eqIgnoreAsciiCase (hhex artifact) (by simpa using hdigest)

/-- Two staged manifests with one signed text agree in all the fields it covers. -/
theorem signed_bytes_authorise_one (hopens : OpensPaths h) (hhex : crypto.Hex)
    (hm : ((stage crypto m active).run h w).1 = .ok ())
    (hm' : ((stage crypto m' active').run h w').1 = .ok ())
    (heq : m.signedBytes = m'.signedBytes) :
    m.version = m'.version ∧ m.targetSlot = m'.targetSlot ∧ m.artifact = m'.artifact ∧
      m.sha256 = m'.sha256 := by
  obtain ⟨hslot, hpath, hdigest⟩ := accepted_of_stage hopens hhex hm
  obtain ⟨hslot', hpath', hdigest'⟩ := accepted_of_stage hopens hhex hm'
  have hnul : ∀ {s}, isSlot s = true → nul ∉ s.toList := by
    intro s hs
    rcases (by simpa [isSlot] using hs : s = "a" ∨ s = "b") with rfl | rfl <;> decide
  have hchars := congrArg String.toList heq
  simp only [UpdateManifest.signedBytes, String.toList_append,
    show "\x00".toList = [nul] from rfl] at hchars
  -- from the right: the digest, the path and the slot hold no separator
  obtain ⟨hchars, hsha⟩ := append_nul_inj hdigest hdigest' hchars
  obtain ⟨hchars, hartifact⟩ := append_nul_inj hpath hpath' hchars
  obtain ⟨hversion, htarget⟩ := append_nul_inj (hnul hslot) (hnul hslot') hchars
  exact ⟨String.toList_injective hversion, String.toList_injective htarget,
    String.toList_injective hartifact, String.toList_injective hsha⟩

def openFiles : Handler iface World
  | .readArtifact path, w => (if nul ∈ path.toList then .error .notFound else .ok [], w)
  | c, w => perform ⟨.error .notFound, .error .notFound⟩ c w

/-- A version that holds a separator, with two signatures. -/
def separatedManifest (signature : String) : UpdateManifest :=
  ⟨"1\x00b", "b", "image", "AB", signature⟩

theorem signed_bytes_authorise_one_separated :
    (separatedManifest "s").version = (separatedManifest "t").version := by
  have hopens : OpensPaths openFiles := by
    intro path w bytes h hmem
    change (if nul ∈ path.toList then Except.error IoError.notFound else .ok []) = .ok bytes at h
    rw [if_pos hmem] at h
    cases h
  have hhex : Crypto.Hex ⟨fun _ _ => .ok (), fun _ => "ab"⟩ := by
    intro bytes c hc
    simp_all
    grind
  have hstage : ∀ s ∈ ["s", "t"], ((stage ⟨fun _ _ => .ok (), fun _ => "ab"⟩ (separatedManifest s)
      "a").run openFiles toyWorld).1 = .ok () := by decide +kernel
  exact (signed_bytes_authorise_one hopens hhex (hstage "s" (by simp)) (hstage "t" (by simp)) rfl).1

end StarFabric.Onboard
