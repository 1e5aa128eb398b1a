import SynGateway.Core.Auth

/-!
# The admin secret

`require_admin` of `app/core/admin_auth.py`. It lets a request pass whose credential is the
configured secret, and is to refuse every other one with an `AdminAuthError`. The comparison of the
two is one of ASCII strings and raises on others, so this holds exactly if both are ASCII where they
are compared (`admin_exact_iff`).
-/

namespace SynGateway.Core.AdminAuth

open SynGateway.Core.Auth SynGateway.Python

/-- The settings of `app.state`; an attribute that is missing or `None` is `none`. -/
structure Settings where
  adminSecret : Option Text

/-- `_configured_admin_secret`. -/
def configuredAdminSecret (settings : Option Settings) : Text :=
  match settings with
  | none => []
  | some settings => settings.adminSecret.getD []

/-- `AdminAuthError(detail)`. -/
def adminAuthError (detail : String) : Exc := keyError .adminAuthError detail

/-- Every character is ASCII. -/
def isAscii (s : Text) : Bool := s.all fun c => c.toNat < 128

/-- `hmac.compare_digest(a, b)` of two `str`. -/
def compareDigest (a b : Text) : Except Exc Bool :=
  if isAscii a && isAscii b then .ok (a = b)
  else .error (.exception "comparing strings with non-ASCII characters is not supported")

/-- What `require_admin` compares: `none` is `None`. -/
def provided (xAdminSecret authorization : Option Text) : Option Text :=
  if xAdminSecret.getD [] ≠ [] then xAdminSecret
  else if authorization.getD [] ≠ [] then
    match splitSpaceOnce (authorization.getD []) with
    | [scheme, rest] => if isBearer scheme then some (strip rest) else none
    | _ => none
  else none

/-- `require_admin`. -/
def requireAdmin (settings : Option Settings) (xAdminSecret authorization : Option Text) :
    Except Exc Unit := do
  let expected := configuredAdminSecret settings
  if expected = [] then throw (adminAuthError "admin plane is not configured")
  let credential := (provided xAdminSecret authorization).getD []
  if credential = [] then throw (adminAuthError "admin authentication required")
  if !(← compareDigest credential expected) then throw (adminAuthError "invalid admin credentials")

/-! ## The credential of a request -/

/-- A header value of a scheme and a token, with white space around and between them. -/
def BearerToken (header token : Text) : Prop :=
  ∃ lead scheme gap trail, header = lead ++ (scheme ++ (gap ++ (token ++ trail))) ∧
    isBearer scheme = true ∧
    (gap ≠ [] ∧ ∀ c ∈ gap, isSpace c = true) ∧ Trimmed token ∧
    ∀ c ∈ lead ++ trail, isSpace c = true

/-- The credential of a request: the header of its own or, if that is empty or missing, the token of
the other. -/
inductive Credential (xAdminSecret authorization : Option Text) (credential : Text) : Prop
  | own (h : xAdminSecret = some credential) (hne : credential ≠ [])
  | bearer (hnone : xAdminSecret.getD [] = []) {header : Text}
      (hheader : authorization = some header) (htoken : BearerToken header credential)

/-- White space is in lower case. -/
theorem toLower_of_isSpace {c : Char} (h : isSpace c = true) : c.toLower = c := by
  unfold Char.toLower
  refine dif_neg fun hupper => ?_
  have hlow : 65 ≤ c.toNat := hupper.1
  have hhigh : c.toNat ≤ 90 := hupper.2
  simp only [isSpace, Bool.or_eq_true, Bool.and_eq_true, decide_eq_true_eq] at h
  omega

/-- A scheme that lowers to `bearer` is a word. -/
theorem word_of_isBearer {scheme : Text} (h : isBearer scheme = true) :
    scheme ≠ [] ∧ ∀ c ∈ scheme, isSpace c = false := by
  have hlower : scheme.map Char.toLower = "bearer".toList := of_decide_eq_true h
  constructor
  · rintro rfl
    cases hlower
  · intro c hc
    have hmem : c.toLower ∈ "bearer".toList := hlower ▸ List.mem_map_of_mem hc
    by_contra hspace
    rw [Bool.not_eq_false] at hspace
    rw [toLower_of_isSpace hspace] at hmem
    have hword : "bearer".toList.all (!isSpace ·) = true := rfl
    have hnot := List.all_eq_true.mp hword c hmem
    simp [hspace] at hnot

/-- A bearer token is what follows the scheme, without blanks around it. -/
theorem bearerToken_iff {header token : Text} :
    BearerToken header token ↔
      ∃ scheme rest, splitSpaceOnce header = [scheme, rest] ∧ isBearer scheme = true ∧
      strip rest = token := by
  constructor
  · rintro ⟨lead, scheme, gap, trail, rfl, hscheme, hgap, htoken, hspace⟩
    rw [List.forall_mem_append] at hspace
    -- the blanks around the token belong to the gap and the trail
    have hhead : ∀ c ∈ (token ++ trail).head?, isSpace c = false := by
      intro c hc
      rw [List.head?_append_of_ne_nil _ htoken.ne_nil, List.head?_eq_some_head htoken.ne_nil] at hc
      exact Option.some.inj hc ▸ htoken.head
    have hne : token ++ trail ≠ [] := List.append_ne_nil_of_left_ne_nil htoken.ne_nil _
    exact ⟨scheme, token ++ trail,
      splitSpaceOnce_eq_pair.mpr ⟨lead, gap, rfl, hspace.1, word_of_isBearer hscheme, hgap,
        hne, hhead⟩,
      hscheme, (strip_eq_iff hne hhead).mpr ⟨trail, rfl, htoken, hspace.2⟩⟩
  · rintro ⟨scheme, rest, hsplit, hscheme, hstrip⟩
    obtain ⟨lead, gap, rfl, hlead, -, hgap, hne, hhead⟩ := splitSpaceOnce_eq_pair.mp hsplit
    obtain ⟨trail, rfl, htoken, htrail⟩ := (strip_eq_iff hne hhead).mp hstrip
    exact ⟨lead, scheme, gap, trail, rfl, hscheme, hgap, htoken,
      List.forall_mem_append.mpr ⟨hlead, htrail⟩⟩

/-- A bearer token is not empty. -/
theorem BearerToken.ne_nil {header token : Text} (h : BearerToken header token) : token ≠ [] := by
  obtain ⟨-, -, -, -, -, -, -, htoken, -⟩ := h
  exact htoken.ne_nil

/-- What is compared is the credential. -/
theorem provided_eq_some_iff {xAdminSecret authorization : Option Text} {credential : Text} :
    provided xAdminSecret authorization = some credential ∧ credential ≠ [] ↔
      Credential xAdminSecret authorization credential := by
  unfold provided
  constructor
  · rintro ⟨h, hne⟩
    split_ifs at h with hown hheader
    · exact .own h hne
    · obtain ⟨header, rfl⟩ : ∃ header, authorization = some header := by
        cases authorization with
        | none => exact absurd rfl hheader
        | some header => exact ⟨header, rfl⟩
      refine .bearer (not_not.mp hown) rfl (bearerToken_iff.mpr ?_)
      split at h
      · next scheme rest hsplit =>
          -- the header is read only where the other one is absent or empty
          split_ifs at h with hscheme
          exact ⟨scheme, rest, hsplit, hscheme, Option.some.inj h⟩
      · cases h
  · rintro (⟨rfl, hne⟩ | ⟨hnone, rfl, htoken⟩)
    · exact ⟨if_pos hne, hne⟩
    · obtain ⟨scheme, rest, hsplit, hscheme, hstrip⟩ := bearerToken_iff.mp htoken
      refine ⟨?_, htoken.ne_nil⟩
      have hheader : ∀ header : Text, splitSpaceOnce header = [scheme, rest] → header ≠ [] := by
        rintro _ h rfl
        cases h
      rw [if_neg (not_not_intro hnone), Option.getD_some, if_pos (hheader _ hsplit), hsplit]
      dsimp only
      rw [if_pos hscheme, hstrip]

/-! ## The decision -/

section

variable {settings : Option Settings} {xAdminSecret authorization : Option Text} {credential : Text}

/-- Two headers carry one credential. -/
theorem Credential.unique {credential' : Text}
    (h : Credential xAdminSecret authorization credential)
    (h' : Credential xAdminSecret authorization credential') : credential = credential' :=
  Option.some.inj ((provided_eq_some_iff.mpr h).1.symm.trans (provided_eq_some_iff.mpr h').1)

/-- Without a configured secret every request is refused. -/
theorem requireAdmin_of_unconfigured (hsecret : configuredAdminSecret settings = []) :
    requireAdmin settings xAdminSecret authorization =
      .error (adminAuthError "admin plane is not configured") := by
  unfold requireAdmin
  rw [if_pos hsecret]
  rfl

/-- A request without a credential is refused. -/
theorem requireAdmin_of_missing (hsecret : configuredAdminSecret settings ≠ [])
    (hnone : ∀ credential, ¬ Credential xAdminSecret authorization credential) :
    requireAdmin settings xAdminSecret authorization =
      .error (adminAuthError "admin authentication required") := by
  have hmissing : (provided xAdminSecret authorization).getD [] = [] := by
    cases hprovided : provided xAdminSecret authorization with
    | none => rfl
    | some credential =>
        exact not_not.mp fun hne => hnone credential (provided_eq_some_iff.mp ⟨hprovided, hne⟩)
  unfold requireAdmin
  rw [if_neg hsecret]
  dsimp only
  rw [if_pos hmissing]
  rfl

/-- With a secret and a credential, what happens is decided by their comparison. -/
theorem requireAdmin_of_credential (hsecret : configuredAdminSecret settings ≠ [])
    (h : Credential xAdminSecret authorization credential) :
    requireAdmin settings xAdminSecret authorization =
      if isAscii credential && isAscii (configuredAdminSecret settings) then
        if credential = configuredAdminSecret settings then .ok ()
        else .error (adminAuthError "invalid admin credentials")
      else .error (.exception "comparing strings with non-ASCII characters is not supported") := by
  obtain ⟨hprovided, hne⟩ := provided_eq_some_iff.mpr h
  unfold requireAdmin compareDigest
  rw [if_neg hsecret, hprovided, Option.getD_some]
  dsimp only
  rw [if_neg hne]
  split_ifs with hascii hequal
  · simp [hequal]; rfl
  · simp [hequal]; rfl
  · rfl

/-- A request passes exactly if its credential is the secret, and every other one gets an
`AdminAuthError`. -/
def AdminExact (settings : Option Settings) (xAdminSecret authorization : Option Text) : Prop :=
  (requireAdmin settings xAdminSecret authorization = .ok () ↔
    configuredAdminSecret settings ≠ [] ∧
      Credential xAdminSecret authorization (configuredAdminSecret settings)) ∧
  ∀ e, requireAdmin settings xAdminSecret authorization = .error e →
    ∃ error, e = .syn error ∧ error.cls = .adminAuthError

/-- **Admin authentication is exact** for the requests whose credential is ASCII, as the secret is;
or where there is nothing to compare. -/
theorem admin_exact_iff (settings : Option Settings) (xAdminSecret authorization : Option Text) :
    AdminExact settings xAdminSecret authorization ↔
      (configuredAdminSecret settings ≠ [] → ∀ credential,
          Credential xAdminSecret authorization credential →
        isAscii credential = true ∧ isAscii (configuredAdminSecret settings) = true) := by
  have htyped : ∀ detail e, (Except.error (adminAuthError detail) : Except Exc Unit) = .error e →
      ∃ error, e = .syn error ∧ error.cls = .adminAuthError := by
    rintro detail _ ⟨⟩
    exact ⟨_, rfl, rfl⟩
  unfold AdminExact
  by_cases hsecret : configuredAdminSecret settings = []
  · rw [requireAdmin_of_unconfigured hsecret]
    exact iff_of_true ⟨iff_of_false nofun fun h => h.1 hsecret, htyped _⟩ fun h => absurd hsecret h
  by_cases hsome : ∃ credential, Credential xAdminSecret authorization credential
  · obtain ⟨credential, hcredential⟩ := hsome
    rw [requireAdmin_of_credential hsecret hcredential]
    -- `compare_digest` takes both texts, or raises on one that is not ASCII
    by_cases hascii : (isAscii credential && isAscii (configuredAdminSecret settings)) = true
    · rw [if_pos hascii]
      rw [Bool.and_eq_true] at hascii
      refine iff_of_true ?_ fun _ credential' h' => hcredential.unique h' ▸ hascii
      split_ifs with hequal
      · exact ⟨iff_of_true rfl ⟨hsecret, hequal ▸ hcredential⟩, nofun⟩
      · exact ⟨iff_of_false nofun fun h => hequal (hcredential.unique h.2), htyped _⟩
    · rw [if_neg hascii]
      refine iff_of_false (fun h => ?_) fun h =>
        hascii ((Bool.and_eq_true _ _).mpr (h hsecret credential hcredential))
      obtain ⟨_, herror, -⟩ := h.2 _ rfl
      cases herror
  · rw [requireAdmin_of_missing hsecret (not_exists.mp hsome)]
    exact iff_of_true ⟨iff_of_false nofun fun h => hsome ⟨_, h.2⟩, htyped _⟩
      fun _ credential h => absurd ⟨credential, h⟩ hsome

/-- A header value with an accent makes the comparison raise. -/
theorem admin_inexact :
    ¬ ∀ settings xAdminSecret authorization, AdminExact settings xAdminSecret authorization := by
  intro hall
  have hraises : requireAdmin (some ⟨some "secret".toList⟩) (some "é".toList) none =
      .error (.exception "comparing strings with non-ASCII characters is not supported") := rfl
  obtain ⟨_, herror, -⟩ := (hall _ _ _).2 _ hraises
  cases herror

end

end SynGateway.Core.AdminAuth
