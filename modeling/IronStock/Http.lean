import IronStock.Uuid

/-!
# Requests and answers

What the handlers share: the error body with its code and message, the claims
of the access token that the middleware puts in the request, and the checks a
handler makes before it writes anything.
-/
namespace IronStock

/-- Microseconds since the epoch. -/
abbrev Time := Int

/-- `unicode.IsSpace`. -/
def isSpace (c : Char) : Bool :=
  let n := c.toNat
  (9 ≤ n && n ≤ 13) ||
    [0x20, 0x85, 0xA0, 0x1680, 0x2028, 0x2029, 0x202F, 0x205F, 0x3000].contains n ||
    (0x2000 ≤ n && n ≤ 0x200A)

/-- `strings.TrimSpace`. -/
def trimSpace (s : String) : String :=
  String.ofList (((s.toList.dropWhile isSpace).reverse.dropWhile isSpace).reverse)

/-- A text is its trimmed middle with space on either side. -/
theorem trimSpace_split (s : String) : ∃ before after : List Char,
    s.toList = before ++ ((trimSpace s).toList ++ after) ∧ (∀ c ∈ before, isSpace c = true) ∧
      ∀ c ∈ after, isSpace c = true := by
  have hback := congrArg List.reverse
    (List.takeWhile_append_dropWhile (p := isSpace) (l := (s.toList.dropWhile isSpace).reverse))
  rw [List.reverse_reverse, List.reverse_append] at hback
  refine ⟨s.toList.takeWhile isSpace,
    ((s.toList.dropWhile isSpace).reverse.takeWhile isSpace).reverse, ?_,
    fun c hc => List.all_eq_true.1 List.all_takeWhile c hc, fun c hc => ?_⟩
  · rw [trimSpace, String.toList_ofList, hback, List.takeWhile_append_dropWhile]
  · exact List.all_eq_true.1 List.all_takeWhile c (List.mem_reverse.1 hc)

/-- The roles of `migrations/00003_roles.sql`. -/
inductive Role
  | read
  | write
  | admin
deriving DecidableEq, Repr

/-- The claims of a verified access token. The subject is always the canonical
text of a user id, so it is kept as the id. -/
structure Claims where
  subject : Uuid
  roles : List Role
deriving DecidableEq

def Claims.hasRole (claims : Claims) (role : Role) : Bool := claims.roles.contains role

/-- The error body and the status it is sent with. -/
structure ApiError where
  status : Nat
  code : String
  message : String
deriving DecidableEq, Repr

def errCodeBadRequest := "bad_request"
def errCodeUnauthorized := "unauthorized"
def errCodeInvalidCreds := "invalid_credentials"
def errCodeInvalidMFA := "invalid_mfa"
def errCodeInvalidCode := "invalid_code"
def errCodeInvalidToken := "invalid_token"
def errCodeAccountLocked := "account_locked"
def errCodeMFARequired := "mfa_required"
def errCodeForbidden := "forbidden"
def errCodeNotFound := "not_found"
def errCodeConflict := "conflict"
def errCodeInternal := "internal_error"
def errCodeClientCertRequired := "client_cert_required"
def errCodeClientCertInvalid := "client_cert_invalid"

def badRequest (message : String) : ApiError := ⟨400, errCodeBadRequest, message⟩
def internalError (message : String) : ApiError := ⟨500, errCodeInternal, message⟩

abbrev Reply (α : Type) := Except ApiError α

namespace Reply

variable {α β : Type}

/-- Go on only if `p` holds. -/
def require (p : Prop) [Decidable p] (e : ApiError) : Reply Unit :=
  if p then .ok () else .error e

/-- The value of a query, or the error for a query that failed. -/
def orElse (o : Option α) (e : ApiError) : Reply α :=
  match o with
  | some a => .ok a
  | none => .error e

/-- A check that the admin role bypasses. -/
def unlessAdmin (claims : Claims) (check : Reply Unit) : Reply Unit :=
  if claims.hasRole .admin then .ok () else check

@[simp] theorem require_eq_ok {p : Prop} [Decidable p] {e : ApiError} {u : Unit} :
    require p e = .ok u ↔ p := by
  unfold require
  split <;> simp_all

@[simp] theorem orElse_eq_ok {o : Option α} {e : ApiError} {a : α} :
    orElse o e = .ok a ↔ o = some a := by
  unfold orElse
  split <;> simp_all

@[simp] theorem unlessAdmin_eq_ok {claims : Claims} {check : Reply Unit} {u : Unit} :
    unlessAdmin claims check = .ok u ↔ claims.hasRole .admin = true ∨ check = .ok () := by
  unfold unlessAdmin
  split <;> simp_all

theorem toOption_eq_some {ε : Type} {x : Except ε α} {a : α} :
    x.toOption = some a ↔ x = .ok a := by
  cases x <;> simp [Except.toOption]

/-- What a sequence of checks that passed has passed. -/
@[simp] theorem bind_eq_ok {x : Reply α} {f : α → Reply β} {b : β} :
    (x >>= f) = .ok b ↔ ∃ a, x = .ok a ∧ f a = .ok b := by
  cases x with
  | error e => simp [bind, Except.bind]
  | ok a => simp [bind, Except.bind]

@[simp] theorem pure_eq_ok {a b : α} : (pure a : Reply α) = .ok b ↔ a = b := by
  simp [pure, Except.pure]

end Reply

end IronStock
