/-
When the two decisions to keep a connection open agree.

A parsed message looks for `close`, and then for `keep-alive`, in its first Connection field; the
streaming reader takes the first of these tokens in any of the fields.
-/
import Netz.Http1.Head

namespace Netz.Http1

open List

open Http (ascii)

variable {version : Version} {headers : List Header}

def close : Bytes := ascii "close"

def stay : Bytes := ascii "keep-alive"

def decides (token : Bytes) : Bool := token == close || token == stay

/-- The tokens of a field, in lower case. -/
def tokensOf (header : Header) : List Bytes :=
  (header.value.splitOn 0x2c).map fun raw => (trimOws raw).map toLower

def connectionFields (headers : List Header) : List Header :=
  headers.filter fun header => header.eqlName "connection"

def connectionTokens (headers : List Header) : List Bytes :=
  (connectionFields headers).flatMap tokensOf

def firstTokens (headers : List Header) : List Bytes :=
  ((connectionFields headers).head?.map tokensOf).getD []

lemma isToken_close (raw : Bytes) : isToken raw "close" = ((trimOws raw).map toLower == close) :=
  rfl

lemma isToken_stay (raw : Bytes) :
    isToken raw "keep-alive" = ((trimOws raw).map toLower == stay) :=
  rfl

lemma keepAlive_eq : keepAlive version headers = if close ∈ firstTokens headers then false
    else if stay ∈ firstTokens headers then true else version == .http11 := by
  unfold keepAlive findHeader firstTokens connectionFields
  rw [head?_filter]
  cases headers.find? (·.eqlName "connection") with
  | none => rfl
  | some header =>
    have hmem : ∀ {token : String} {word : Bytes},
        (∀ raw, isToken raw token = ((trimOws raw).map toLower == word)) →
        (containsToken header.value token = true ↔ word ∈ tokensOf header) := by
      intro token word htoken
      simp [containsToken, tokensOf, htoken]
    simp [hmem isToken_close, hmem isToken_stay]

lemma valuesKeepAlive_eq (values : List Bytes) : valuesKeepAlive values =
    ((values.map fun raw => (trimOws raw).map toLower).find? decides).map (· == stay) := by
  induction values with
  | nil => rfl
  | cons raw rest ih =>
    unfold valuesKeepAlive
    rw [map_cons, find?_cons, isToken_close, isToken_stay]
    by_cases hclose : (trimOws raw).map toLower = close
    · rw [hclose]
      rfl
    by_cases hstay : (trimOws raw).map toLower = stay
    · rw [hstay]
      rfl
    have hneither : decides ((trimOws raw).map toLower) = false := by simp [decides, hclose, hstay]
    rw [hneither, if_neg (by simp [hclose]), if_neg (by simp [hstay])]
    exact ih

lemma messageKeepAlive_eq : messageKeepAlive version headers =
    (((connectionTokens headers).find? decides).map (· == stay)).getD (version == .http11) := by
  induction headers with
  | nil => rfl
  | cons header rest ih =>
    unfold messageKeepAlive connectionTokens connectionFields
    by_cases hname : header.eqlName "connection" = true
    · rw [filter_cons, if_pos hname, flatMap_cons, find?_append, hname,
        valuesKeepAlive_eq]
      unfold tokensOf
      cases ((header.value.splitOn 0x2c).map fun raw => (trimOws raw).map toLower).find? decides with
      | none => exact ih
      | some token => rfl
    · rw [filter_cons, if_neg hname, if_pos (by simp [hname])]
      exact ih

/-- **The decisions agree, and never override `close`, exactly if** `close` is the first of the
tokens wherever it stands and a parsed message sees it, or has no reason to stay; and without
`close`, if a parsed message sees `keep-alive` where it matters. -/
theorem keepAlive_agrees_iff (version : Version) (headers : List Header) :
    (keepAlive version headers = messageKeepAlive version headers ∧
      (close ∈ connectionTokens headers →
        keepAlive version headers = false ∧ messageKeepAlive version headers = false)) ↔
    (close ∈ connectionTokens headers → (connectionTokens headers).find? decides = some close ∧
      (close ∈ firstTokens headers ∨ stay ∉ firstTokens headers ∧ version = .http10)) ∧
    (close ∉ connectionTokens headers → version = .http10 → stay ∈ connectionTokens headers →
      stay ∈ firstTokens headers) := by
  have hfirst : ∀ token ∈ firstTokens headers, token ∈ connectionTokens headers := by
    unfold firstTokens connectionTokens
    intro token htoken
    cases hfields : connectionFields headers with
    | nil =>
      rw [hfields] at htoken
      cases htoken
    | cons field rest =>
      rw [hfields] at htoken
      exact mem_append_left _ htoken
  rw [keepAlive_eq, messageKeepAlive_eq]
  by_cases hclose : close ∈ connectionTokens headers
  · obtain ⟨token, htoken⟩ := Option.isSome_iff_exists.mp
      (find?_isSome.mpr ⟨close, hclose, (by decide : decides close = true)⟩)
    have hdecides := find?_some htoken
    unfold decides at hdecides
    rw [Bool.or_eq_true, beq_iff_eq, beq_iff_eq] at hdecides
    rw [htoken]
    have hne : close ≠ stay := by decide
    rcases hdecides with rfl | rfl
    · have hbeq : (close == stay) = false := by decide
      by_cases hseen : close ∈ firstTokens headers
      · simp [hclose, hseen, hbeq]
      · by_cases hstay : stay ∈ firstTokens headers <;>
          cases version <;> simp [hclose, hseen, hstay, hbeq]
    · simp [hclose, hne.symm]
  · rw [if_neg fun h => hclose (hfirst close h)]
    cases hfound : (connectionTokens headers).find? decides with
    | none =>
      have hstay : stay ∉ connectionTokens headers := fun h =>
        find?_eq_none.mp hfound stay h (by decide)
      simp [hclose, hstay, mt (hfirst stay) hstay]
    | some token =>
      have hdecides := find?_some hfound
      have hmem := mem_of_find?_eq_some hfound
      unfold decides at hdecides
      rw [Bool.or_eq_true, beq_iff_eq, beq_iff_eq] at hdecides
      rcases hdecides with rfl | rfl
      · exact absurd hmem hclose
      · cases version <;> simp [hclose, hmem]

theorem keepAlive_disagrees :
    ∃ headers, keepAlive .http11 headers ≠ messageKeepAlive .http11 headers :=
  ⟨[⟨ascii "Connection", ascii "keep-alive, close"⟩], by decide⟩

end Netz.Http1
