import Veto.Foundation.PercentCoding
import Mathlib.Logic.Function.Basic

/-!
# Query strings

A query is a list of parts between `&`, a part a key and a value around its first `=`.  Both are
percent-encoded.  A reader keeps the parts whose key it knows; what a writer wrote is read back.
-/

namespace Veto.Foundation

variable {κ β : Type}

/-! ## Reading -/

/-- The key and the value of a part, as they are written. -/
def splitPart (part : JsString) : JsString × JsString :=
  (part.takeWhile (· ≠ 0x3d), (part.dropWhile (· ≠ 0x3d)).drop 1)

/-- A part with a known key.  A key that does not decode is passed over, a value that does not is
`none`. -/
def readPart (known : JsString → Option κ) (part : JsString) : Option (κ × Option JsString) :=
  if part = [] then none
  else do
    let key ← decodeURIComponent (splitPart part).1
    let key ← known key
    return (key, decodeURIComponent (splitPart part).2)

/-- The parts of a query. -/
def queryParts (body : JsString) : List JsString := body.splitOn 0x26

/-- The parameters of a query, in order. -/
def parameters (known : JsString → Option κ) (body : JsString) : List (κ × Option JsString) :=
  (queryParts body).filterMap (readPart known)

/-- The values of a key, in order. -/
def valuesOf [DecidableEq κ] (key : κ) (params : List (κ × β)) : List β :=
  (params.filter fun param => param.1 = key).map Prod.snd

section Values

variable [DecidableEq κ] {key : κ}

theorem valuesOf_append (params rest : List (κ × β)) :
    valuesOf key (params ++ rest) = valuesOf key params ++ valuesOf key rest := by
  rw [valuesOf, List.filter_append, List.map_append]
  rfl

theorem valuesOf_map {γ : Type} (f : β → γ) (params : List (κ × β)) :
    valuesOf key (params.map fun param => (param.1, f param.2)) = (valuesOf key params).map f := by
  rw [valuesOf, List.filter_map, List.map_map, valuesOf, List.map_map]
  rfl

theorem valuesOf_eq_nil {params : List (κ × β)} (h : ∀ param ∈ params, param.1 ≠ key) :
    valuesOf key params = [] := by
  rw [valuesOf, List.filter_eq_nil_iff.mpr fun param hparam => by simpa using h param hparam]
  rfl

end Values

/-! ## Writing -/

def writePart (name : κ → JsString) (param : κ × JsString) : Option JsString := do
  return name param.1 ++ 0x3d :: (← encodeURIComponent param.2)

/-- `pairs.map(..).join("&")`. -/
def formatQuery (name : κ → JsString) (params : List (κ × JsString)) : Option JsString := do
  return [0x26].intercalate (← params.mapM (writePart name))

/-! ## What was written is read back -/

/-- Names that need no encoding, each known by its key. -/
structure Named (name : κ → JsString) (known : JsString → Option κ) : Prop where
  plain : ∀ key, encodeURIComponent (name key) = some (name key)
  known : ∀ key, known (name key) = some key

theorem isEncoded_of_encode {s encoded : JsString} (h : encodeURIComponent s = some encoded) :
    ∀ unit ∈ encoded, isEncoded unit = true := by
  obtain ⟨text, -, rfl⟩ := Option.map_eq_some_iff.mp h
  exact fun unit hunit => isEncoded_encodeText hunit

section RoundTrip

variable {name : κ → JsString} {known : JsString → Option κ} (hnamed : Named name known)

theorem splitPart_append {key value : JsString} (hkey : (0x3d : UInt16) ∉ key) :
    splitPart (key ++ 0x3d :: value) = (key, value) := by
  have hrun : ∀ unit ∈ key, decide (unit ≠ 0x3d) = true := by
    intro unit hunit
    exact decide_eq_true fun heq => hkey (heq ▸ hunit)
  have htake : (key ++ 0x3d :: value).takeWhile (fun unit => decide (unit ≠ 0x3d)) = key :=
    takeWhile_append_of_stops hrun rfl
  have hdrop : (key ++ 0x3d :: value).dropWhile (fun unit => decide (unit ≠ 0x3d)) = 0x3d :: value :=
    dropWhile_append_of_stops hrun rfl
  rw [splitPart, htake, hdrop, List.drop_one, List.tail_cons]

include hnamed in
theorem readPart_writePart {param : κ × JsString} {part : JsString}
    (h : writePart name param = some part) :
    readPart known part = some (param.1, some param.2) := by
  obtain ⟨encoded, hencoded, hpart⟩ := Option.bind_eq_some_iff.mp h
  obtain rfl := Option.some.inj hpart
  have hplain := hnamed.plain param.1
  have hkey : (0x3d : UInt16) ∉ name param.1 := by
    intro hmem
    exact absurd (isEncoded_of_encode hplain _ hmem) (by decide)
  rw [readPart, if_neg (by simp), splitPart_append hkey]
  simp only [decodeURIComponent_encode hplain, decodeURIComponent_encode hencoded, hnamed.known,
    Option.bind_eq_bind, Option.bind_some, Option.pure_def]

include hnamed in
theorem units_writePart {param : κ × JsString} {part : JsString}
    (h : writePart name param = some part) :
    ∀ unit ∈ part, isEncoded unit = true ∨ unit = 0x3d := by
  obtain ⟨encoded, hencoded, hpart⟩ := Option.bind_eq_some_iff.mp h
  obtain rfl := Option.some.inj hpart
  intro unit hunit
  rcases List.mem_append.mp hunit with hkey | hvalue
  · exact .inl (isEncoded_of_encode (hnamed.plain param.1) unit hkey)
  · rcases List.mem_cons.mp hvalue with rfl | hvalue
    · exact .inr rfl
    · exact .inl (isEncoded_of_encode hencoded unit hvalue)

include hnamed in
theorem parts_written {params : List (κ × JsString)} {parts : List JsString}
    (h : params.mapM (writePart name) = some parts) :
    parts.filterMap (readPart known) = params.map (fun param => (param.1, some param.2)) ∧
      ∀ part ∈ parts, ∀ unit ∈ part, isEncoded unit = true ∨ unit = 0x3d := by
  induction params generalizing parts with
  | nil =>
      cases h
      exact ⟨rfl, nofun⟩
  | cons param params ih =>
      rw [List.mapM_cons] at h
      obtain ⟨part, hpart, h⟩ := Option.bind_eq_some_iff.mp h
      obtain ⟨rest, hrest, h⟩ := Option.bind_eq_some_iff.mp h
      obtain rfl := Option.some.inj h
      obtain ⟨hread, hunits⟩ := ih hrest
      constructor
      · rw [List.filterMap_cons_some (readPart_writePart hnamed hpart), hread, List.map_cons]
      · intro other hother
        rcases List.mem_cons.mp hother with rfl | hother
        · exact units_writePart hnamed hpart
        · exact hunits other hother

variable {params : List (κ × JsString)} {query : JsString}

include hnamed in
/-- **The parameters of a written query.** -/
theorem parameters_formatQuery (h : formatQuery name params = some query) :
    parameters known query = params.map fun param => (param.1, some param.2) := by
  obtain ⟨parts, hparts, hquery⟩ := Option.bind_eq_some_iff.mp h
  obtain rfl := Option.some.inj hquery
  obtain ⟨hread, hunits⟩ := parts_written hnamed hparts
  rw [← hread]
  cases parts with
  | nil => rfl
  | cons part parts =>
      have hnoamp : ∀ other ∈ part :: parts, (0x26 : UInt16) ∉ other := by
        intro other hother hmem
        rcases hunits other hother _ hmem with hencoded | heq
        · exact absurd hencoded (by decide)
        · exact absurd heq (by decide)
      rw [parameters, queryParts, List.splitOn_intercalate 0x26 hnoamp (List.cons_ne_nil part parts)]

include hnamed in
theorem valuesOf_formatQuery [DecidableEq κ] (h : formatQuery name params = some query) (key : κ) :
    valuesOf key (parameters known query) = (valuesOf key params).map some := by
  rw [parameters_formatQuery hnamed h, valuesOf_map]

variable (name) in
/-- Well-formed values are written. -/
theorem formatQuery_isSome (h : ∀ param ∈ params, isWellFormedUtf16 param.2 = true) :
    (formatQuery name params).isSome = true := by
  have hparts : (params.mapM (writePart name)).isSome = true := by
    induction params with
    | nil => rfl
    | cons param params ih =>
        obtain ⟨encoded, hencoded⟩ := Option.isSome_iff_exists.mp
          (encodeURIComponent_isSome (h param List.mem_cons_self))
        obtain ⟨parts, hrest⟩ := Option.isSome_iff_exists.mp
          (ih fun other hother => h other (List.mem_cons_of_mem _ hother))
        rw [List.mapM_cons, writePart, hencoded, hrest]
        rfl
  obtain ⟨parts, hparts⟩ := Option.isSome_iff_exists.mp hparts
  rw [formatQuery, hparts]
  rfl

include hnamed in
/-- A written query has no other characters than those of encodings and the two separators. -/
theorem units_formatQuery (h : formatQuery name params = some query) :
    ∀ unit ∈ query, isEncoded unit = true ∨ unit = 0x3d ∨ unit = 0x26 := by
  obtain ⟨parts, hparts, hquery⟩ := Option.bind_eq_some_iff.mp h
  obtain rfl := Option.some.inj hquery
  obtain ⟨-, hunits⟩ := parts_written hnamed hparts
  intro unit hunit
  rcases mem_intercalate hunit with hsep | ⟨part, hpart, hmem⟩
  · exact .inr (.inr (List.mem_singleton.mp hsep))
  · exact (hunits part hpart unit hmem).imp_right .inl

end RoundTrip

end Veto.Foundation
