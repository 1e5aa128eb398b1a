import Mathlib.Data.Nat.Notation
import SynGateway.Python.Text

/-!
# API keys

`app/core/api_keys.py`: the tokens `syn_live_<8 letters or digits>_<43 url-safe characters>`. What
is drawn at random is a `Draw`; SHA-256 is the parameter `sha256`, from a token to its hexadecimal
digest.

The secret part may contain the separator. `isValidFormat` splits at the first three underscores
only, and the public part contains none, so every generated token is valid (`isValidFormat_token`).
-/

namespace SynGateway.Core.ApiKeys

open SynGateway.Python

def prefixRandomLen : ℕ := 8

/-- The number of characters of `secrets.token_urlsafe(32)`. -/
def secretLen : ℕ := 43

def prefixNamespace : Text := "syn_live".toList

def visiblePrefixLen : ℕ := prefixNamespace.length + 1 + prefixRandomLen

/-- `c in _PREFIX_ALPHABET`. -/
def inPrefixAlphabet (c : Char) : Bool := c.isAlphanum

/-- A character of url-safe base64. -/
def isUrlSafe (c : Char) : Bool := c.isAlphanum || c = '-' || c = '_'

/-- What `generate_api_key` draws. -/
structure Draw where
  publicPart : Text
  secretSuffix : Text
  public_length : publicPart.length = prefixRandomLen
  public_alphabet : ∀ c ∈ publicPart, inPrefixAlphabet c = true
  secret_length : secretSuffix.length = secretLen
  secret_alphabet : ∀ c ∈ secretSuffix, isUrlSafe c = true

/-- The full token. -/
def Draw.token (draw : Draw) : Text :=
  prefixNamespace ++ "_".toList ++ draw.publicPart ++ "_".toList ++ draw.secretSuffix

/-- The visible prefix of a token. -/
def visiblePrefix (token : Text) : Text := token.take visiblePrefixLen

/-- `generate_api_key`: the token, its prefix and its hash. -/
def generateApiKey (sha256 : Text → String) (draw : Draw) : Text × Text × String :=
  (draw.token, visiblePrefix draw.token, sha256 draw.token)

/-- `verify_api_key`. -/
def verifyApiKey (sha256 : Text → String) (token : Text) (expectedHash : String) : Bool :=
  sha256 token = expectedHash

/-- Lightweight structural check. -/
def isValidFormat (token : Text) : Bool :=
  if token = [] then false
  else
    match splitMax '_' 3 token with
    | [namespace₁, namespace₂, publicPart, secretSuffix] =>
      namespace₁ = "syn".toList && namespace₂ = "live".toList &&
        publicPart.length = prefixRandomLen && publicPart.all inPrefixAlphabet &&
        32 ≤ secretSuffix.length
    | _ => false

/-! ## Generated tokens -/

/-- The public part has no separator. -/
theorem not_mem_underscore (draw : Draw) : '_' ∉ draw.publicPart := by
  intro hmem
  have hletter := draw.public_alphabet '_' hmem
  revert hletter
  decide

/-- The token splits at the underscores that `generate_api_key` puts, whatever its secret part
holds. -/
theorem split_token (draw : Draw) :
    splitMax '_' 3 draw.token =
      ["syn".toList, "live".toList, draw.publicPart, draw.secretSuffix] := by
  have htoken : draw.token = "syn".toList ++ '_' :: ("live".toList ++ '_' ::
      (draw.publicPart ++ '_' :: draw.secretSuffix)) := by
    have hnamespace : prefixNamespace = "syn".toList ++ '_' :: "live".toList := by decide
    unfold Draw.token
    rw [hnamespace]
    simp only [List.append_assoc, List.cons_append]
    rfl
  rw [htoken, splitMax_append (by decide), splitMax_append (by decide),
    splitMax_append (not_mem_underscore draw)]
  rfl

/-- **Every generated token has a valid format.** -/
theorem isValidFormat_token (draw : Draw) : isValidFormat draw.token = true := by
  unfold isValidFormat
  have hne : draw.token ≠ [] := by
    intro hnil
    have hlen := congrArg List.length hnil
    unfold Draw.token at hlen
    simp only [List.length_append, draw.secret_length, List.length_nil, secretLen] at hlen
    omega
  rw [if_neg hne, split_token]
  simp [draw.public_length, draw.secret_length, secretLen,
    List.all_eq_true.mpr draw.public_alphabet]

/-- No character of a secret is a blank. -/
theorem not_space_of_urlSafe {c : Char} (h : isUrlSafe c = true) : isSpace c = false := by
  have hrange : 0x2D ≤ c.toNat ∧ c.toNat ≤ 0x7A := by
    change (decide ('A'.val ≤ c.val ∧ c.val ≤ 'Z'.val) || ('a'.val ≤ c.val && c.val ≤ 'z'.val) ||
      ('0'.val ≤ c.val && c.val ≤ '9'.val) || c = '-' || c = '_') = true at h
    simp only [Bool.or_eq_true, Bool.and_eq_true, decide_eq_true_eq, UInt32.le_iff_toNat_le] at h
    rcases h with (((⟨hlow, hhigh⟩ | ⟨hlow, hhigh⟩) | ⟨hlow, hhigh⟩) | rfl) | rfl
    · exact ⟨le_trans (by decide) hlow, le_trans hhigh (by decide)⟩
    · exact ⟨le_trans (by decide) hlow, le_trans hhigh (by decide)⟩
    · exact ⟨le_trans (by decide) hlow, le_trans hhigh (by decide)⟩
    · decide
    · decide
  unfold isSpace
  simp only [Bool.or_eq_false_iff, Bool.and_eq_false_iff, decide_eq_false_iff_not]
  omega

/-- No white space stands in a generated token. -/
theorem not_space_token (draw : Draw) : ∀ c ∈ draw.token, isSpace c = false := by
  intro c hc
  apply not_space_of_urlSafe
  unfold Draw.token at hc
  simp only [List.mem_append] at hc
  have hnamespace : prefixNamespace.all isUrlSafe = true := rfl
  have hseparator : "_".toList.all isUrlSafe = true := rfl
  rcases hc with (((hc | hc) | hc) | hc) | hc
  · exact List.all_eq_true.mp hnamespace c hc
  · exact List.all_eq_true.mp hseparator c hc
  · unfold isUrlSafe
    rw [show c.isAlphanum = true from draw.public_alphabet c hc]
    rfl
  · exact List.all_eq_true.mp hseparator c hc
  · exact draw.secret_alphabet c hc

end SynGateway.Core.ApiKeys
