import EscrowFlow.Foundations.UriComponent

/-! # Paths of URLs

The part of the WHATWG URL parser behind `url.pathname = value` for a URL with a special scheme: the
path state, with its removal of dot segments. What comes out of a path made of encoded components
is those components, as none of them is a spelling of a dot segment.
-/

namespace EscrowFlow.Foundations.Js
set_option autoImplicit false

/-- A URL record as far as its path goes: `before` and `after` are the serializations of what stands
before and after the path. -/
structure Url where
  before : JsString
  path : List JsString
  after : JsString
  deriving DecidableEq

def Url.toString (u : Url) : JsString :=
  u.before ++ (u.path.flatMap fun segment => 0x2F :: segment) ++ u.after

/-- `USVString`: the code points of a string, each lone surrogate replaced. -/
def scalarValues : JsString → List ℕ
  | [] => []
  | [c] => [if Lead c ∨ Trail c then 0xFFFD else c.toNat]
  | c :: t :: rest =>
    if Lead c ∧ Trail t then pairValue c t :: scalarValues rest
    else (if Lead c ∨ Trail c then 0xFFFD else c.toNat) :: scalarValues (t :: rest)

/-- The path percent-encode set: controls, space, `" # < > ? ^`, the backquote, `{ }` and all that
is not ASCII. -/
def PathEncoded (v : ℕ) : Prop :=
  v ≤ 0x20 ∨ 0x7E < v ∨ v ∈ [0x22, 0x23, 0x3C, 0x3E, 0x3F, 0x5E, 0x60, 0x7B, 0x7D]

instance (v : ℕ) : Decidable (PathEncoded v) := by unfold PathEncoded; infer_instance

/-- UTF-8 percent-encode a code point with the path percent-encode set. -/
def pathEncode (v : ℕ) : JsString := if PathEncoded v then escape (utf8 v) else [.ofNat v]

/-- `.` and `%2e` in either case -/
def singleDots : List JsString := [[0x2E], [0x25, 0x32, 0x65], [0x25, 0x32, 0x45]]

/-- Two of `singleDots`. -/
def doubleDots : List JsString := singleDots.flatMap fun a => singleDots.map fun b => a ++ b

/-- The end of a segment; `last` when no separator follows. -/
def closeSegment (path : List JsString) (buffer : JsString) (last : Bool) : List JsString :=
  if buffer ∈ doubleDots then path.dropLast ++ (if last then [[]] else [])
  else if buffer ∈ singleDots then path ++ (if last then [[]] else [])
  else path ++ [buffer]

/-- The path state with a state override: both slashes separate, as the scheme is special. -/
def pathState (path : List JsString) (buffer : JsString) : List ℕ → List JsString
  | [] => closeSegment path buffer true
  | v :: rest =>
    if v = 0x2F ∨ v = 0x5C then pathState (closeSegment path buffer false) [] rest
    else pathState path (buffer ++ pathEncode v) rest

/-- The path start state. -/
def pathStartState : List ℕ → List JsString
  | v :: rest => if v = 0x2F ∨ v = 0x5C then pathState [] [] rest else pathState [] [] (v :: rest)
  | [] => pathState [] [] []

/-- `url.pathname = value`: tabs and newlines are dropped before the parser starts. -/
def Url.setPathname (u : Url) (value : JsString) : Url :=
  { u with path := pathStartState ((scalarValues value).filter fun v => v ∉ [0x9, 0xA, 0xD]) }

/-! ## Paths made of encoded components -/

/-- `/` in front of each segment. -/
def rooted (segments : List JsString) : JsString := segments.flatMap fun segment => 0x2F :: segment

theorem Encoded.bounds {c : CodeUnit} (h : Encoded c) : 0x20 < c.toNat ∧ c.toNat < 0x7F ∧
    c.toNat ≠ 0x2F ∧ c.toNat ≠ 0x5C ∧ ¬PathEncoded c.toNat := by
  unfold Encoded Unescaped at h
  unfold PathEncoded
  simp only [List.mem_cons, List.not_mem_nil, or_false] at h ⊢
  rcases h with h | rfl
  · omega
  · decide

theorem scalarValues_ascii {s : JsString} (h : ∀ c ∈ s, c.toNat < 0x7F) :
    scalarValues s = s.map (·.toNat) := by
  have hplain : ∀ c : CodeUnit, c.toNat < 0x7F → ¬Lead c ∧ ¬Trail c := by
    intro c hc
    unfold Lead Trail
    omega
  induction s with
  | nil => rfl
  | cons c rest ih =>
    have hc := hplain c (h c List.mem_cons_self)
    have hrest := ih fun x hx => h x (List.mem_cons_of_mem c hx)
    have hor : ¬(Lead c ∨ Trail c) := by
      rintro (hlead | htrail)
      · exact hc.1 hlead
      · exact hc.2 htrail
    cases rest with
    | nil =>
      unfold scalarValues
      rw [if_neg hor]
      rfl
    | cons t rest =>
      unfold scalarValues
      rw [if_neg fun hand => hc.1 hand.1, if_neg hor, hrest]
      rfl

/-- The buffer of the path state after an encoded component. -/
theorem pathState_component {s : JsString} (h : ∀ c ∈ s, Encoded c) (path : List JsString)
    (buffer : JsString) (rest : List ℕ) :
    pathState path buffer (s.map (·.toNat) ++ rest) = pathState path (buffer ++ s) rest := by
  induction s generalizing buffer with
  | nil => simp
  | cons c s ih =>
    obtain ⟨-, -, hslash, hback, hkept⟩ := (h c List.mem_cons_self).bounds
    have hsep : ¬(c.toNat = 0x2F ∨ c.toNat = 0x5C) := by
      rintro (heq | heq)
      · exact hslash heq
      · exact hback heq
    have hencode : pathEncode c.toNat = [c] := by
      unfold pathEncode
      rw [if_neg hkept, UInt16.ofNat_toNat]
    rw [List.map_cons, List.cons_append, pathState, if_neg hsep, hencode, ih fun x hx => h x (List.mem_cons_of_mem c hx), List.append_assoc]
    rfl

/-- A segment the parser keeps as it is. -/
structure Kept (segment : JsString) : Prop where
  encoded : ∀ c ∈ segment, Encoded c
  single : segment ∉ singleDots
  double : segment ∉ doubleDots

theorem closeSegment_kept {segment : JsString} (h : Kept segment) (path : List JsString)
    (last : Bool) : closeSegment path segment last = path ++ [segment] := by
  unfold closeSegment
  rw [if_neg h.double, if_neg h.single]

theorem pathState_rooted {segments : List JsString} (h : ∀ s ∈ segments, Kept s)
    (path : List JsString) {segment : JsString} (hs : Kept segment) :
    pathState path segment ((rooted segments).map (·.toNat)) = path ++ segment :: segments := by
  induction segments generalizing path segment with
  | nil => exact closeSegment_kept hs path true
  | cons t rest ih =>
    have ht := h t List.mem_cons_self
    have hrest := ih (fun s hx => h s (List.mem_cons_of_mem t hx)) (path ++ [segment]) ht
    show pathState path segment (0x2F :: (t ++ rooted rest).map (·.toNat)) = _
    unfold pathState
    rw [if_pos (.inl rfl), closeSegment_kept hs, List.map_append, pathState_component ht.encoded,
      List.nil_append, hrest, List.append_assoc]
    rfl

/-- Setting the pathname to kept segments makes them the path. -/
theorem Url.setPathname_rooted (u : Url) {segment : JsString} {segments : List JsString}
    (h : ∀ s ∈ segment :: segments, Kept s) :
    (u.setPathname (rooted (segment :: segments))).path = segment :: segments := by
  have hbounds : ∀ c ∈ rooted (segment :: segments), 0x20 < c.toNat ∧ c.toNat < 0x7F := by
    intro c hc
    obtain ⟨s, hs, hc⟩ := List.mem_flatMap.mp hc
    rcases List.mem_cons.mp hc with rfl | hc
    · decide
    · have hb := ((h s hs).encoded c hc).bounds
      exact ⟨hb.1, hb.2.1⟩
  have hfilter : (scalarValues (rooted (segment :: segments))).filter (fun v => v ∉ [0x9, 0xA, 0xD]) =
      (rooted (segment :: segments)).map (·.toNat) := by
    rw [scalarValues_ascii fun c hc => (hbounds c hc).2, List.filter_eq_self]
    intro v hv
    obtain ⟨c, hc, rfl⟩ := List.mem_map.mp hv
    have hlow := (hbounds c hc).1
    simp only [List.mem_cons, List.not_mem_nil, or_false, decide_eq_true_eq]
    omega
  have hfirst := h segment List.mem_cons_self
  have hrest := pathState_rooted (fun s hs => h s (List.mem_cons_of_mem segment hs)) [] hfirst
  show pathStartState _ = _
  rw [hfilter]
  show pathState [] [] ((segment ++ rooted segments).map (·.toNat)) = _
  rw [List.map_append, pathState_component hfirst.encoded, List.nil_append, hrest]
  rfl

/-- The encoding of a string that is not `.` or `..` is kept: every spelling of a dot segment
decodes to a dot segment. -/
theorem Encodes.kept {s e : JsString} (h : Encodes s e) (hone : s ≠ [0x2E]) (htwo : s ≠ [0x2E, 0x2E]) :
    Kept e where
  encoded := h.encoded
  single hmem := by
    have hdots : ∀ d ∈ singleDots, decodeURIComponent d = some [0x2E] := by decide
    have hdecode := h.decodes
    rw [hdots e hmem] at hdecode
    exact hone (Option.some.inj hdecode).symm
  double hmem := by
    have hdots : ∀ d ∈ doubleDots, decodeURIComponent d = some [0x2E, 0x2E] := by decide
    have hdecode := h.decodes
    rw [hdots e hmem] at hdecode
    exact htwo (Option.some.inj hdecode).symm

end EscrowFlow.Foundations.Js
