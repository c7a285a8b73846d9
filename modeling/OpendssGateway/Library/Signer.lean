import Mathlib.Init

/-!
# Signed tokens

A signer whose tokens cannot be forged.  A `Token` is what `dumps` makes
of a payload, under a salt and at a time of the clock.  A `Text` is what a
client may send: a token, made or not, or a string that is no token.

* `dumps` signs, and notes the token.
* `loads` accepts a token that was signed, under its own salt, and up to an
  age.
* `loads_eq_ok` says when it does.
-/

namespace Signer

/-- What is signed, for which purpose and when.  Texts of tokens are equal when these are. -/
structure Token (σ π : Type*) where
  salt : σ
  payload : π
  timestamp : Int
  deriving DecidableEq

/-- A token, or a string of another kind. -/
inductive Text (σ π ς : Type*)
  | token (t : Token σ π)
  | other (s : ς)
  deriving DecidableEq

/-- Why a text does not load. -/
inductive Refusal
  | expired
  | bad
  deriving DecidableEq

variable {σ π ς : Type*}

/-- Sign a payload. -/
def dumps (issued : List (Token σ π)) (clock : Int) (payload : π) (salt : σ) :
    Token σ π × List (Token σ π) :=
  let token := { salt, payload, timestamp := clock }
  (token, issued ++ [token])

variable [DecidableEq σ] [DecidableEq π]

/-- The payload of a token, and when it was signed. -/
def loads (issued : List (Token σ π)) (clock : Int) (text : Text σ π ς) (salt : σ) (maxAge : Int) :
    Except Refusal (π × Int) :=
  match text with
  | .other _ => .error .bad
  | .token t =>
    if t ∈ issued ∧ t.salt = salt then
      if clock - t.timestamp ≤ maxAge then .ok (t.payload, t.timestamp) else .error .expired
    else .error .bad

/-- A text loads exactly when it is a token that was signed under the salt, and not too
long ago. -/
theorem loads_eq_ok {issued : List (Token σ π)} {clock timestamp : Int} {text : Text σ π ς}
    {salt : σ} {maxAge : Int} {payload : π} :
    loads issued clock text salt maxAge = .ok (payload, timestamp) ↔
      text = .token { salt, payload, timestamp } ∧ { salt, payload, timestamp } ∈ issued ∧
        clock - timestamp ≤ maxAge := by
  unfold loads
  constructor
  · intro h
    split at h
    · cases h
    · split at h
      · rename_i t hissued
        split at h
        · rename_i hage
          obtain ⟨hmem, rfl⟩ := hissued
          cases h
          exact ⟨rfl, hmem, hage⟩
        · cases h
      · cases h
  · rintro ⟨rfl, hmem, hage⟩
    dsimp only
    rw [if_pos ⟨hmem, rfl⟩, if_pos hage]

end Signer
