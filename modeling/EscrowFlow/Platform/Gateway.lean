import Mathlib
import EscrowFlow.Foundations.UrlPath

/-! # IPFS URIs and the gateway

`toIpfsUri` and `parseIpfsUri` write and read `ipfs://<cid>/<path>`; both pass the path through
`sanitizeIpfsPath`, whose results it leaves alone. `toGatewayUrl` encodes the path segment by segment
and hands it to the URL parser, which then finds no dot segment to act on.
-/

namespace EscrowFlow.Platform
open EscrowFlow.Foundations.Js
set_option autoImplicit false

inductive Thrown
  | ipfsError (code message : String)
  | uriError
  deriving DecidableEq, Repr

structure ParsedIpfsUri where
  cid : JsString
  path : JsString
  deriving DecidableEq

/-! ## Strings -/

def slash : CodeUnit := 0x2F
def dot : CodeUnit := 0x2E

/-- `ipfs` -/
def ipfs : JsString := [0x69, 0x70, 0x66, 0x73]

/-- `ipfs://` -/
def scheme : JsString := ipfs ++ [0x3A, slash, slash]

/-- `WhiteSpace` and `LineTerminator` -/
def isWhiteSpace (c : CodeUnit) : Bool :=
  let n := c.toNat
  n ∈ [0x09, 0x0A, 0x0B, 0x0C, 0x0D, 0x20, 0xA0, 0x1680, 0x2028, 0x2029, 0x202F, 0x205F, 0x3000,
    0xFEFF] ∨ 0x2000 ≤ n ∧ n ≤ 0x200A

/-- `s.trim()` -/
def trim (s : JsString) : JsString := (s.dropWhile isWhiteSpace).rdropWhile isWhiteSpace

/-- `s.replace(/^\/+/, "")` -/
def dropSlashes (s : JsString) : JsString := s.dropWhile (· == slash)

/-- `s.split("/")` -/
def splitSlash (s : JsString) : List JsString := s.splitOn slash

/-- `parts.join("/")` -/
def joinSlash (parts : List JsString) : JsString := [slash].intercalate parts

/-- `[1-9A-HJ-NP-Za-km-z]` -/
def base58 (c : CodeUnit) : Bool :=
  let n := c.toNat
  0x31 ≤ n ∧ n ≤ 0x39 ∨ 0x41 ≤ n ∧ n ≤ 0x48 ∨ 0x4A ≤ n ∧ n ≤ 0x4E ∨ 0x50 ≤ n ∧ n ≤ 0x5A ∨
    0x61 ≤ n ∧ n ≤ 0x6B ∨ 0x6D ≤ n ∧ n ≤ 0x7A

/-- `[a-z2-7]` -/
def base32 (c : CodeUnit) : Bool :=
  let n := c.toNat
  0x61 ≤ n ∧ n ≤ 0x7A ∨ 0x32 ≤ n ∧ n ≤ 0x37

/-- `/^Qm[1-9A-HJ-NP-Za-km-z]{44}$/` -/
def cidV0 : JsString → Bool
  | q :: m :: rest => q = 0x51 ∧ m = 0x6D ∧ rest.length = 44 ∧ rest.all base58
  | _ => false

/-- `/^b[a-z2-7]{20,}$/` -/
def cidV1 : JsString → Bool
  | b :: rest => b = 0x62 ∧ 20 ≤ rest.length ∧ rest.all base32
  | _ => false

/-! ## The codec -/

def isValidCid (value : JsString) : Bool := cidV0 value || cidV1 value

def sanitizeIpfsPath (path : JsString) : Except Thrown JsString :=
  let normalized := trim (dropSlashes path)
  if normalized = [] then .ok []
  else if (splitSlash normalized).any fun segment =>
      segment = [] ∨ segment = [dot] ∨ segment = [dot, dot] then
    .error (.ipfsError "IPFS_PATH_INVALID" "Invalid path inside IPFS URI")
  else .ok normalized

def toIpfsUri (cid path : JsString) : Except Thrown JsString := do
  if isValidCid cid = false then .error (.ipfsError "IPFS_INVALID_CID" "Invalid CID")
  else
    let normalizedPath ← sanitizeIpfsPath path
    return if normalizedPath ≠ [] then scheme ++ cid ++ slash :: normalizedPath else scheme ++ cid

def parseIpfsUri (uri : JsString) : Except Thrown ParsedIpfsUri :=
  if ¬scheme <+: uri then
    .error (.ipfsError "IPFS_URI_INVALID_SCHEME" "IPFS URI must start with ipfs://")
  else
    let raw := dropSlashes (uri.drop scheme.length)
    match splitSlash raw with
    | [] => .error (.ipfsError "IPFS_INVALID_CID" "IPFS URI CID is invalid")
    | cid :: pathParts =>
      if cid = [] ∨ isValidCid cid = false then
        .error (.ipfsError "IPFS_INVALID_CID" "IPFS URI CID is invalid")
      else do
        let path ← sanitizeIpfsPath (joinSlash pathParts)
        return ⟨cid, path⟩

/-- `encodePath`, which throws what `encodeURIComponent` throws. -/
def encodePath (path : JsString) : Except Thrown JsString :=
  match (splitSlash path).mapM encodeURIComponent with
  | some segments => .ok (joinSlash segments)
  | none => .error .uriError

/-- `gateway` is `new URL("https://" + IPFS_GATEWAY_HOST)`. -/
def toGatewayUrl (gateway : Url) (value : JsString) : Except Thrown JsString := do
  let parsed ← if scheme <+: value then parseIpfsUri value else .ok ⟨value, []⟩
  if isValidCid parsed.cid = false then .error (.ipfsError "IPFS_INVALID_CID" "Invalid CID")
  else
    let pathname ← if parsed.path ≠ [] then do
        let path ← encodePath parsed.path
        pure (slash :: ipfs ++ slash :: parsed.cid ++ slash :: path)
      else pure (slash :: ipfs ++ slash :: parsed.cid)
    return (gateway.setPathname pathname).toString

/-! ## CIDs -/

theorem unescaped_of_base58 {c : CodeUnit} (h : base58 c = true) : Unescaped c ∧ c ≠ slash := by
  have h := of_decide_eq_true h
  unfold Unescaped
  refine ⟨by omega, ?_⟩
  rintro rfl
  revert h
  decide

theorem unescaped_of_base32 {c : CodeUnit} (h : base32 c = true) : Unescaped c ∧ c ≠ slash := by
  have h := of_decide_eq_true h
  unfold Unescaped
  refine ⟨by omega, ?_⟩
  rintro rfl
  revert h
  decide

/-- A CID is a nonempty word of characters that no step of the codec touches. -/
structure Word (cid : JsString) : Prop where
  long : 2 < cid.length
  unescaped : ∀ c ∈ cid, Unescaped c ∧ c ≠ slash

theorem isValidCid_word {cid : JsString} (h : isValidCid cid = true) : Word cid := by
  unfold isValidCid at h
  rcases Bool.or_eq_true_iff.mp h with h | h
  · match cid, h with
    | q :: m :: rest, h =>
      obtain ⟨rfl, rfl, hlength, hall⟩ := of_decide_eq_true h
      refine ⟨by simp [hlength], ?_⟩
      intro c hc
      rcases List.mem_cons.mp hc with rfl | hc
      · decide
      · rcases List.mem_cons.mp hc with rfl | hc
        · decide
        · exact unescaped_of_base58 (List.all_eq_true.mp hall c hc)
  · match cid, h with
    | b :: rest, h =>
      obtain ⟨rfl, hlength, hall⟩ := of_decide_eq_true h
      refine ⟨by rw [List.length_cons]; omega, ?_⟩
      intro c hc
      rcases List.mem_cons.mp hc with rfl | hc
      · decide
      · exact unescaped_of_base32 (List.all_eq_true.mp hall c hc)

theorem ipfs_word : Word ipfs := by
  refine ⟨by decide, ?_⟩
  unfold ipfs
  simp only [List.forall_mem_cons]
  refine ⟨⟨by decide, by decide⟩, ⟨by decide, by decide⟩, ⟨by decide, by decide⟩,
    ⟨by decide, by decide⟩, ?_⟩
  intro c hc
  cases hc

theorem Word.encodes {cid : JsString} (h : Word cid) : Encodes cid cid := by
  have hall : ∀ s : JsString, (∀ c ∈ s, Unescaped c ∧ c ≠ slash) → Encodes s s := by
    intro s hs
    induction s with
    | nil => exact .nil
    | cons c s ih =>
      exact (ih fun x hx => hs x (List.mem_cons_of_mem c hx)).plain (hs c List.mem_cons_self).1
  exact hall cid h.unescaped

theorem Word.kept {cid : JsString} (h : Word cid) : Kept cid := by
  have hlong := h.long
  apply h.encodes.kept
  · rintro rfl
    exact absurd hlong (by decide)
  · rintro rfl
    exact absurd hlong (by decide)

theorem Word.no_slash {cid : JsString} (h : Word cid) : slash ∉ cid := by
  intro hmem
  exact (h.unescaped slash hmem).2 rfl

/-- Nothing in front of a CID to strip. -/
theorem Word.dropSlashes_append {cid : JsString} (h : Word cid) (s : JsString) :
    dropSlashes (cid ++ s) = cid ++ s := by
  cases cid with
  | nil => exact absurd h.long (by decide)
  | cons c cid =>
    have hc : (c == slash) = false := beq_eq_false_iff_ne.mpr (h.unescaped c List.mem_cons_self).2
    unfold dropSlashes
    rw [List.cons_append, List.dropWhile_cons, hc]
    rfl

/-! ## Sanitized paths -/

/-- The results of `sanitizeIpfsPath`. -/
structure Clean (path : JsString) : Prop where
  trimmed : trim path = path
  segments : path ≠ [] → ∀ s ∈ splitSlash path, s ≠ [] ∧ s ≠ [dot] ∧ s ≠ [dot, dot]

theorem trim_trim (s : JsString) : trim (trim s) = trim s := by
  have hfirst : (trim s).dropWhile isWhiteSpace = trim s := by
    obtain ⟨rest, hrest⟩ := List.rdropWhile_prefix isWhiteSpace (s.dropWhile isWhiteSpace)
    change trim s ++ rest = s.dropWhile isWhiteSpace at hrest
    cases htrim : trim s with
    | nil => rfl
    | cons c trimmed =>
      rw [htrim, List.cons_append] at hrest
      have hfirst := List.dropWhile_get_zero_not isWhiteSpace s (by rw [← hrest]; exact Nat.succ_pos _)
      simp only [← hrest, List.get_eq_getElem, List.getElem_cons_zero] at hfirst
      rw [List.dropWhile_cons, if_neg hfirst]
  show ((trim s).dropWhile isWhiteSpace).rdropWhile isWhiteSpace = trim s
  rw [hfirst]
  exact List.rdropWhile_idempotent isWhiteSpace (s.dropWhile isWhiteSpace)

theorem sanitizeIpfsPath_clean {path clean : JsString} (h : sanitizeIpfsPath path = .ok clean) :
    Clean clean := by
  simp only [sanitizeIpfsPath] at h
  split at h
  · cases h
    exact ⟨rfl, fun hne => absurd rfl hne⟩
  · split at h
    · cases h
    · rename_i hinvalid
      cases h
      refine ⟨trim_trim _, fun _ s hs => ?_⟩
      have hnone := fun hbad => hinvalid (List.any_eq_true.mpr ⟨s, hs, decide_eq_true hbad⟩)
      exact ⟨fun heq => hnone (.inl heq), fun heq => hnone (.inr (.inl heq)),
        fun heq => hnone (.inr (.inr heq))⟩

/-- A clean path does not start with a slash. -/
theorem Clean.dropSlashes {path : JsString} (h : Clean path) : dropSlashes path = path := by
  cases path with
  | nil => rfl
  | cons c path =>
    have hc : ¬(c == slash) = true := by
      intro heq
      have heq := eq_of_beq heq
      subst heq
      have hsplit : splitSlash ([] ++ slash :: path) = [] :: splitSlash path :=
        List.splitOn_append_cons_self_of_not_mem List.not_mem_nil path
      rw [List.nil_append] at hsplit
      have hfirst := h.segments (List.cons_ne_nil _ _) []
      rw [hsplit] at hfirst
      exact (hfirst List.mem_cons_self).1 rfl
    unfold Platform.dropSlashes
    rw [List.dropWhile_cons, if_neg hc]

/-- Sanitizing again changes nothing. -/
theorem Clean.sanitize {path : JsString} (h : Clean path) : sanitizeIpfsPath path = .ok path := by
  simp only [sanitizeIpfsPath]
  rw [h.dropSlashes, h.trimmed]
  split
  · rename_i hnil
    rw [hnil]
  · rename_i hne
    have hvalid : ¬((splitSlash path).any fun segment =>
        segment = [] ∨ segment = [dot] ∨ segment = [dot, dot]) = true := by
      intro hany
      obtain ⟨s, hs, hbad⟩ := List.any_eq_true.mp hany
      obtain ⟨h₁, h₂, h₃⟩ := h.segments hne s hs
      rcases of_decide_eq_true hbad with heq | heq | heq
      · exact h₁ heq
      · exact h₂ heq
      · exact h₃ heq
    rw [if_neg hvalid]

/-! ## Round trips -/

/-- What `toIpfsUri` writes for a CID and a clean path. -/
def canonical (cid path : JsString) : JsString :=
  if path ≠ [] then scheme ++ cid ++ slash :: path else scheme ++ cid

theorem toIpfsUri_ok {cid path uri : JsString} (h : toIpfsUri cid path = .ok uri) :
    isValidCid cid = true ∧ ∃ clean, sanitizeIpfsPath path = .ok clean ∧ uri = canonical cid clean := by
  unfold toIpfsUri at h
  split at h
  · cases h
  · rename_i hcid
    have hcid := Bool.of_not_eq_false hcid
    cases hs : sanitizeIpfsPath path with
    | error e =>
      rw [hs] at h
      cases h
    | ok clean =>
      rw [hs] at h
      cases h
      exact ⟨hcid, clean, rfl, rfl⟩

theorem toIpfsUri_clean {cid path : JsString} (hcid : isValidCid cid = true) (h : Clean path) :
    toIpfsUri cid path = .ok (canonical cid path) := by
  unfold toIpfsUri
  rw [if_neg (by rw [hcid]; decide), h.sanitize]
  rfl

theorem parseIpfsUri_canonical {cid path : JsString} (hcid : isValidCid cid = true) (h : Clean path) :
    parseIpfsUri (canonical cid path) = .ok ⟨cid, path⟩ := by
  have hword := isValidCid_word hcid
  have hne : ¬(cid = [] ∨ isValidCid cid = false) := by
    rintro (rfl | hinvalid)
    · exact absurd hword.long (by decide)
    · rw [hcid] at hinvalid
      cases hinvalid
  by_cases hnil : path = []
  · subst hnil
    have hraw : dropSlashes ((scheme ++ cid).drop scheme.length) = cid := by
      rw [List.drop_left]
      have hdrop := hword.dropSlashes_append []
      rwa [List.append_nil] at hdrop
    have hsplit : splitSlash cid = [cid] := List.splitOn_eq_singleton hword.no_slash
    show parseIpfsUri (scheme ++ cid) = _
    unfold parseIpfsUri
    rw [if_neg (not_not.mpr (List.prefix_append scheme cid))]
    dsimp only
    rw [hraw, hsplit]
    dsimp only
    rw [if_neg hne]
    rfl
  · have hraw : dropSlashes ((scheme ++ (cid ++ slash :: path)).drop scheme.length) =
        cid ++ slash :: path := by
      rw [List.drop_left, hword.dropSlashes_append]
    have hsplit : splitSlash (cid ++ slash :: path) = cid :: splitSlash path :=
      List.splitOn_append_cons_self_of_not_mem hword.no_slash path
    have hjoin : joinSlash (splitSlash path) = path := List.intercalate_splitOn slash
    unfold canonical
    rw [if_pos hnil, List.append_assoc]
    unfold parseIpfsUri
    rw [if_neg (not_not.mpr (List.prefix_append scheme _))]
    dsimp only
    rw [hraw, hsplit]
    dsimp only
    rw [if_neg hne, hjoin, h.sanitize]
    rfl

theorem parseIpfsUri_ok {uri : JsString} {r : ParsedIpfsUri} (h : parseIpfsUri uri = .ok r) :
    scheme <+: uri ∧ isValidCid r.cid = true ∧ Clean r.path := by
  unfold parseIpfsUri at h
  split at h
  · cases h
  · rename_i hscheme
    dsimp only at h
    split at h
    · cases h
    · rename_i cid pathParts hsplit
      split at h
      · cases h
      · rename_i hvalid
        cases hs : sanitizeIpfsPath (joinSlash pathParts) with
        | error e =>
          rw [hs] at h
          cases h
        | ok clean =>
          rw [hs] at h
          cases h
          refine ⟨not_not.mp hscheme, ?_, sanitizeIpfsPath_clean hs⟩
          exact Bool.of_not_eq_false fun hf => hvalid (.inr hf)

/-! ## The gateway URL -/

theorem rooted_join {parts : List JsString} (h : parts ≠ []) :
    slash :: joinSlash parts = rooted parts := by
  unfold joinSlash
  induction parts with
  | nil => exact absurd rfl h
  | cons a parts ih =>
    cases parts with
    | nil => simp [rooted, slash]
    | cons b parts =>
      have hrest := ih (List.cons_ne_nil b parts)
      rw [List.intercalate_cons_cons, List.append_assoc, List.singleton_append, hrest]
      rfl

/-- The parts of a well-formed string are well formed. -/
theorem wellFormed_parts {parts : List JsString} (h : WellFormed (joinSlash parts)) :
    ∀ s ∈ parts, WellFormed s := by
  unfold joinSlash at h
  induction parts with
  | nil => nofun
  | cons a parts ih =>
    cases parts with
    | nil =>
      intro s hs
      obtain rfl := List.mem_singleton.mp hs
      simpa using h
    | cons b parts =>
      rw [List.intercalate_cons_cons, List.append_assoc, List.singleton_append] at h
      have hsplit := h.split (by decide) (by decide)
      intro s hs
      rcases List.mem_cons.mp hs with rfl | hs
      · exact hsplit.1
      · exact ih hsplit.2 s hs

/-- The segments of a parsed path. -/
def pathSegments (path : JsString) : List JsString := if path = [] then [] else splitSlash path

theorem Clean.encoded {path : JsString} (h : Clean path) (hwell : WellFormed path) :
    ∃ encoded, (pathSegments path).mapM encodeURIComponent = some encoded ∧
      List.Forall₂ Encodes (pathSegments path) encoded ∧ ∀ e ∈ encoded, Kept e := by
  have hall : ∀ parts : List JsString,
      (∀ s ∈ parts, WellFormed s ∧ s ≠ [dot] ∧ s ≠ [dot, dot]) →
      ∃ encoded, parts.mapM encodeURIComponent = some encoded ∧
        List.Forall₂ Encodes parts encoded ∧ ∀ e ∈ encoded, Kept e := by
    intro parts hparts
    induction parts with
    | nil => exact ⟨[], rfl, .nil, nofun⟩
    | cons s parts ih =>
      obtain ⟨hs, hone, htwo⟩ := hparts s List.mem_cons_self
      obtain ⟨e, he⟩ := hs.encodes
      obtain ⟨encoded, hmap, hforall, hkept⟩ := ih fun x hx => hparts x (List.mem_cons_of_mem s hx)
      refine ⟨e :: encoded, ?_, .cons he hforall, ?_⟩
      · rw [List.mapM_cons, he.encode, hmap]
        rfl
      · intro x hx
        rcases List.mem_cons.mp hx with rfl | hx
        · exact he.kept hone htwo
        · exact hkept x hx
  apply hall
  unfold pathSegments
  split
  · nofun
  · rename_i hne
    have hparts : WellFormed (joinSlash (splitSlash path)) := by
      unfold joinSlash splitSlash
      rwa [List.intercalate_splitOn]
    intro s hs
    exact ⟨wellFormed_parts hparts s hs, (h.segments hne s hs).2⟩

/-- The path handed to the URL parser: `/ipfs`, the CID and the encoded segments. -/
theorem toGatewayUrl_parsed {gateway : Url} {uri : JsString} {r : ParsedIpfsUri}
    (h : parseIpfsUri uri = .ok r) {encoded : List JsString}
    (hencoded : (pathSegments r.path).mapM encodeURIComponent = some encoded)
    (hforall : List.Forall₂ Encodes (pathSegments r.path) encoded) :
    toGatewayUrl gateway uri =
      .ok (gateway.setPathname (rooted (ipfs :: r.cid :: encoded))).toString := by
  obtain ⟨hscheme, hcid, -⟩ := parseIpfsUri_ok h
  unfold toGatewayUrl
  rw [if_pos hscheme, h]
  show (if isValidCid r.cid = false then _ else _) = _
  rw [if_neg (by rw [hcid]; decide)]
  by_cases hnil : r.path = []
  · have hnone : encoded = [] := by
      rw [pathSegments, if_pos hnil] at hforall
      cases hforall
      rfl
    have hroot : rooted [ipfs, r.cid] = slash :: ipfs ++ slash :: r.cid := by
      simp [rooted, slash]
    rw [if_neg (not_not.mpr hnil), hnone, hroot]
    rfl
  · rw [pathSegments, if_neg hnil] at hencoded hforall
    have hne : encoded ≠ [] := by
      rintro rfl
      cases hparts : splitSlash r.path with
      | nil => exact List.splitOn_ne_nil slash r.path hparts
      | cons s parts =>
        rw [hparts] at hforall
        cases hforall
    have hroot : rooted (ipfs :: r.cid :: encoded) =
        slash :: ipfs ++ slash :: r.cid ++ slash :: joinSlash encoded := by
      rw [rooted_join hne]
      simp [rooted, slash]
    rw [if_pos hnil, encodePath, hencoded, hroot]
    rfl

/-- Writing and reading agree on every path `toIpfsUri` accepts; what `parseIpfsUri` reads has one
canonical spelling; and the gateway URL has the segments `ipfs`, the CID and those of the path. -/
theorem ipfs_codec :
    (∀ cid path uri, toIpfsUri cid path = .ok uri →
      ∃ clean, sanitizeIpfsPath path = .ok clean ∧ parseIpfsUri uri = .ok ⟨cid, clean⟩) ∧
    (∀ uri r, parseIpfsUri uri = .ok r →
      ∃ again, toIpfsUri r.cid r.path = .ok again ∧ parseIpfsUri again = .ok r) ∧
    ∀ (gateway : Url) uri r, parseIpfsUri uri = .ok r → WellFormed r.path →
      ∃ (url : Url) (rest : List JsString), toGatewayUrl gateway uri = .ok url.toString ∧
        url.before = gateway.before ∧ url.after = gateway.after ∧ url.path = ipfs :: r.cid :: rest ∧
        url.path.map decodeURIComponent = (ipfs :: r.cid :: pathSegments r.path).map some := by
  refine ⟨?_, ?_, ?_⟩
  · intro cid path uri h
    obtain ⟨hcid, clean, hclean, rfl⟩ := toIpfsUri_ok h
    exact ⟨clean, hclean, parseIpfsUri_canonical hcid (sanitizeIpfsPath_clean hclean)⟩
  · intro uri r h
    obtain ⟨-, hcid, hclean⟩ := parseIpfsUri_ok h
    exact ⟨_, toIpfsUri_clean hcid hclean, parseIpfsUri_canonical hcid hclean⟩
  · intro gateway uri r h hwell
    obtain ⟨-, hcid, hclean⟩ := parseIpfsUri_ok h
    obtain ⟨encoded, hmap, hforall, hkept⟩ := hclean.encoded hwell
    have hword := isValidCid_word hcid
    have hall : ∀ s ∈ ipfs :: r.cid :: encoded, Kept s := by
      intro s hs
      rcases List.mem_cons.mp hs with rfl | hs
      · exact ipfs_word.kept
      · rcases List.mem_cons.mp hs with rfl | hs
        · exact hword.kept
        · exact hkept s hs
    have hpath := gateway.setPathname_rooted hall
    refine ⟨_, encoded, toGatewayUrl_parsed h hmap hforall, rfl, rfl, hpath, ?_⟩
    rw [hpath, List.map_cons, List.map_cons, List.map_cons, List.map_cons, ipfs_word.encodes.decodes,
      hword.encodes.decodes]
    have hdecoded : ∀ parts encoded, List.Forall₂ Encodes parts encoded →
        encoded.map decodeURIComponent = parts.map some := by
      intro parts encoded hparts
      induction hparts with
      | nil => rfl
      | cons hs _ ih => rw [List.map_cons, List.map_cons, hs.decodes, ih]
    rw [hdecoded _ _ hforall]

/-- `b` and twenty times `a`. -/
def sampleCid : JsString := 0x62 :: List.replicate 20 0x61

/-- `/ a/%2e ` -/
def samplePath : JsString := [slash, 0x20, 0x61, slash, 0x25, 0x32, 0x65, 0x20]

/-- The sample path without its slash and its spaces. -/
def sampleClean : JsString := [0x61, slash, 0x25, 0x32, 0x65]

theorem sample_codec :
    parseIpfsUri (canonical sampleCid sampleClean) = .ok ⟨sampleCid, sampleClean⟩ ∧
      ∀ gateway : Url, ∃ (url : Url) (rest : List JsString),
        toGatewayUrl gateway (canonical sampleCid sampleClean) = .ok url.toString ∧
          url.path = ipfs :: sampleCid :: rest ∧
          url.path.map decodeURIComponent =
            [some ipfs, some sampleCid, some [0x61], some [0x25, 0x32, 0x65]] := by
  have hto : toIpfsUri sampleCid samplePath = .ok (canonical sampleCid sampleClean) := by rfl
  have hclean : sanitizeIpfsPath samplePath = .ok sampleClean := by rfl
  have hwell : WellFormed sampleClean :=
    .unit (by decide) (by decide) (.unit (by decide) (by decide) (.unit (by decide) (by decide)
      (.unit (by decide) (by decide) (.unit (by decide) (by decide) .nil))))
  obtain ⟨clean, hsanitize, hparse⟩ := ipfs_codec.1 _ _ _ hto
  rw [hclean] at hsanitize
  cases hsanitize
  refine ⟨hparse, fun gateway => ?_⟩
  obtain ⟨url, rest, hurl, -, -, hpath, hdecoded⟩ := ipfs_codec.2.2 gateway _ _ hparse hwell
  exact ⟨url, rest, hurl, hpath, hdecoded⟩

end EscrowFlow.Platform
