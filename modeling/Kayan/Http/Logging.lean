import Mathlib
import Kayan.Lib.Entries

/-!
# Logged requests

`sanitizeForLog` and the record that `LoggingInterceptor` writes when a request starts. What is
logged depends on a credential whose key is not among the sensitive keys.
-/
namespace Kayan.Http

/-- A JavaScript string: its UTF-16 code units. -/
abbrev JsString := List Nat

/-- Text of ASCII characters. -/
def ascii (text : String) : JsString := text.toList.map Char.toNat

/-- A value of a request body. The keys of an object are distinct. -/
inductive Value where
  | null
  | bool (b : Bool)
  | num (n : ℚ)
  | str (s : JsString)
  | arr (xs : List Value)
  | obj (fs : List (String × Value))

abbrev Members := List (String × Value)

def sensitiveKeys : List String :=
  ["password", "token", "authorization", "secret", "otp", "ssn", "refreshtoken", "accesstoken"]

def maxStringLength : Nat := 300
def maxArrayLength : Nat := 20
def maxObjectKeys : Nat := 30
def maxDepth : Nat := 4

/-- `toLowerCase`, as far as ASCII words can come of it: of the other characters, only the Kelvin
sign becomes an ASCII letter. -/
def toLowerCase (c : Char) : Char := if c = '\u212a' then 'k' else c.toLower

/-- `key.toLowerCase().replace(/[_-]/g, '')`. -/
def normalizedKey (key : String) : String :=
  String.ofList ((key.toList.map toLowerCase).filter fun c => c ≠ '_' && c ≠ '-')

def isSensitive (key : String) : Bool := normalizedKey key ∈ sensitiveKeys

section Sanitizing

def truncationMark (n : Nat) : String := "[truncated:" ++ toString n ++ "]"

/-- A string as it is logged. -/
def shorten (s : JsString) : JsString :=
  if maxStringLength < s.length then
    s.take maxStringLength ++ ascii ("..." ++ truncationMark (s.length - maxStringLength))
  else s

/-- The entries that `out` gets: assigning to `__proto__` adds none. -/
def loggedMembers (fs : Members) : Members := (fs.take maxObjectKeys).filter fun x => x.1 ≠ "__proto__"

/-- The items of an array that are logged, and the mark of the others. -/
def withMark (n : Nat) (items : List Value) : List Value :=
  if maxArrayLength < n then items ++ [.str (ascii (truncationMark (n - maxArrayLength)))] else items

/-- The sanitized value, when so many levels of objects and arrays are still logged. -/
def sanitizeWithin : Nat → Value → Value
  | _, .null => .null
  | _, .bool b => .bool b
  | _, .num n => .num n
  | _, .str s => .str (shorten s)
  | 0, .arr _ => .str (ascii "[depth-limited]")
  | 0, .obj _ => .str (ascii "[depth-limited]")
  | levels + 1, .arr xs => .arr (withMark xs.length ((xs.take maxArrayLength).map (sanitizeWithin levels)))
  | levels + 1, .obj fs =>
    .obj ((loggedMembers fs).map fun x =>
      (x.1, if isSensitive x.1 then .str (ascii "[REDACTED]") else sanitizeWithin levels x.2))

def sanitizeForLog (value : Value) (depth : Nat := 0) : Value := sanitizeWithin (maxDepth - depth) value

end Sanitizing

/-- What `LoggingInterceptor` reads of a request. -/
structure Request where
  method : JsString
  originalUrl : JsString
  ip : JsString
  userId : Option Nat
  requestId : Option JsString
  body : Value

structure LogRecord where
  service : String
  protocol : String
  routeOrEvent : JsString
  message : String
  correlationId : Option JsString
  requestId : Option JsString
  userId : Option Nat
  metaFields : Value

/-- The record of a started request: the interceptor sanitizes the body, and the logger once more
the whole of its `meta`. -/
def requestStarted (logHttpBody : Bool) (request : Request) : LogRecord where
  service := "http"
  protocol := "http"
  routeOrEvent := request.method ++ ascii " " ++ request.originalUrl
  message := "HTTP request started"
  correlationId := request.requestId
  requestId := request.requestId
  userId := request.userId
  metaFields := sanitizeForLog (.obj
    ([("method", .str request.method), ("path", .str request.originalUrl), ("clientIp", .str request.ip)] ++
      if logHttpBody then [("body", sanitizeForLog request.body)] else []))

section Credentials

/-- The credential fields of the DTOs, in the form of `normalizedKey`. -/
def credentialKeys : List String :=
  ["password", "oldpassword", "newpassword", "confirmpassword", "otp", "token", "accesstoken", "refreshtoken"]

def isCredential (key : String) : Bool := normalizedKey key ∈ credentialKeys

mutual

/-- The values differ only in the values of credential fields. -/
def DifferOnly : Value → Value → Prop
  | .arr xs, .arr ys => DifferItems xs ys
  | .obj fs, .obj gs => DifferMembers fs gs
  | x, y => x = y
termination_by structural x => x

def DifferItems : List Value → List Value → Prop
  | [], [] => True
  | x :: xs, y :: ys => DifferOnly x y ∧ DifferItems xs ys
  | _, _ => False
termination_by structural x => x

def DifferMembers : List (String × Value) → List (String × Value) → Prop
  | [], [] => True
  | (k, v) :: fs, (l, w) :: gs => (k = l ∧ (isCredential k = true ∨ DifferOnly v w)) ∧ DifferMembers fs gs
  | _, _ => False
termination_by structural x => x

end

/-- A value of which no part is logged, in the place of what is logged for it. -/
def hidden : Value → Value
  | .arr _ => .str (ascii "[depth-limited]")
  | .obj _ => .str (ascii "[depth-limited]")
  | x => x

/-- The log shows the same of two values: of a string its length and its first characters, of an
array its length and its first items, of an object its first entries that are not sensitive, and
nothing below the last level. -/
def SameShown : Nat → Value → Value → Prop
  | _, .str s, .str t => s.length = t.length ∧ s.take maxStringLength = t.take maxStringLength
  | 0, x, y => hidden x = hidden y
  | levels + 1, .arr xs, .arr ys =>
    xs.length = ys.length ∧ List.Forall₂ (SameShown levels) (xs.take maxArrayLength) (ys.take maxArrayLength)
  | levels + 1, .obj fs, .obj gs =>
    List.Forall₂ (fun a b => a.1 = b.1 ∧ (isSensitive a.1 = true ∨ SameShown levels a.2 b.2))
      (loggedMembers fs) (loggedMembers gs)
  | _, x, y => x = y

/-- The log shows the same of the credentials that it does not redact. -/
def ExposedAlike : Nat → Value → Value → Prop
  | levels + 1, .arr xs, .arr ys =>
    List.Forall₂ (ExposedAlike levels) (xs.take maxArrayLength) (ys.take maxArrayLength)
  | levels + 1, .obj fs, .obj gs =>
    List.Forall₂ (fun a b => isSensitive a.1 = true ∨
      if isCredential a.1 then SameShown levels a.2 b.2 else ExposedAlike levels a.2 b.2)
      (loggedMembers fs) (loggedMembers gs)
  | _, _, _ => True

end Credentials

section Strings

theorem ascii_injective : Function.Injective ascii := by
  intro s t h
  have hlist : s.toList = t.toList := List.map_injective_iff.mpr (fun a b hab => Char.toNat_inj.mp hab) h
  exact String.toList_injective hlist

theorem truncationMark_injective : Function.Injective truncationMark := by
  intro m n h
  have hlist : ("[truncated:" ++ toString m ++ "]").toList = ("[truncated:" ++ toString n ++ "]").toList :=
    congrArg String.toList h
  simp only [String.toList_append, List.append_assoc] at hlist
  have hrepr : (toString m).toList = (toString n).toList :=
    List.append_cancel_right (List.append_cancel_left hlist)
  exact Nat.repr_injective (String.toList_injective hrepr)

theorem length_shorten_gt {s : JsString} (h : maxStringLength < s.length) : maxStringLength < (shorten s).length := by
  have hmark : 0 < (ascii ("..." ++ truncationMark (s.length - maxStringLength))).length := by
    simp [ascii]
  rw [shorten, if_pos h, List.length_append, List.length_take, Nat.min_eq_left (Nat.le_of_lt h)]
  omega

/-- What is logged of a string is its length and its first characters. -/
theorem shorten_eq_iff {s t : JsString} :
    shorten s = shorten t ↔ s.length = t.length ∧ s.take maxStringLength = t.take maxStringLength := by
  by_cases hs : maxStringLength < s.length <;> by_cases ht : maxStringLength < t.length
  · have hlen : (s.take maxStringLength).length = (t.take maxStringLength).length := by
      rw [List.length_take, List.length_take]
      omega
    rw [shorten, if_pos hs, shorten, if_pos ht]
    constructor
    · intro h
      obtain ⟨htake, hmark⟩ := List.append_inj h hlen
      have hdots : truncationMark (s.length - maxStringLength) = truncationMark (t.length - maxStringLength) := by
        have hlist := congrArg String.toList (ascii_injective hmark)
        rw [String.toList_append, String.toList_append] at hlist
        exact String.toList_injective (List.append_cancel_left hlist)
      have hsub := truncationMark_injective hdots
      exact ⟨by omega, htake⟩
    · rintro ⟨hn, htake⟩
      rw [hn, htake]
  · refine iff_of_false (fun h => ?_) fun h => ht (h.1 ▸ hs)
    have hlong := length_shorten_gt hs
    rw [h, shorten, if_neg ht] at hlong
    exact ht hlong
  · refine iff_of_false (fun h => ?_) fun h => hs (h.1 ▸ ht)
    have hlong := length_shorten_gt ht
    rw [← h, shorten, if_neg hs] at hlong
    exact hs hlong
  · rw [shorten, if_neg hs, shorten, if_neg ht, List.take_of_length_le (Nat.le_of_not_lt hs),
      List.take_of_length_le (Nat.le_of_not_lt ht)]
    exact ⟨fun h => ⟨congrArg List.length h, h⟩, fun h => h.2⟩

/-- A short text is logged only for itself. -/
theorem shorten_eq_short {s t : JsString} (h : t.length ≤ maxStringLength) : shorten s = t ↔ s = t := by
  by_cases hs : maxStringLength < s.length
  · refine iff_of_false (fun he => ?_) fun he => Nat.not_lt.mpr h (he ▸ hs)
    have hlong := length_shorten_gt hs
    rw [he] at hlong
    omega
  · rw [shorten, if_neg hs]

theorem withMark_eq_iff {m n : Nat} {xs ys : List Value} (hx : xs.length = min maxArrayLength m)
    (hy : ys.length = min maxArrayLength n) : withMark m xs = withMark n ys ↔ m = n ∧ xs = ys := by
  constructor
  · intro h
    have hlen := congrArg List.length h
    unfold withMark at h hlen
    split at h <;> split at h
    · rename_i hm hn
      have hsame : xs.length = ys.length := by omega
      obtain ⟨hxy, hmark⟩ := List.append_inj h hsame
      have htext : truncationMark (m - maxArrayLength) = truncationMark (n - maxArrayLength) := by
        apply ascii_injective
        injection hmark with hmark
        injection hmark
      have hsub := truncationMark_injective htext
      exact ⟨by omega, hxy⟩
    · rename_i hm hn
      rw [if_pos hm, if_neg hn, List.length_append, List.length_singleton] at hlen
      omega
    · rename_i hm hn
      rw [if_neg hm, if_pos hn, List.length_append, List.length_singleton] at hlen
      omega
    · rename_i hm hn
      rw [if_neg hm, if_neg hn] at hlen
      exact ⟨by omega, h⟩
  · rintro ⟨rfl, rfl⟩
    rfl

end Strings

section Relations
variable {α β : Type} {R Q : α → α → Prop} {f : α → β} {xs ys : List α} {x y : Value} {levels : Nat}

/-- Lists that are related item by item have the same images exactly when their items have. -/
theorem map_eq_iff_forall₂ (h : ∀ a b, R a b → (f a = f b ↔ Q a b)) (hr : List.Forall₂ R xs ys) :
    xs.map f = ys.map f ↔ List.Forall₂ Q xs ys := by
  induction hr with
  | nil => simp
  | cons hab _ ih => rw [List.map_cons, List.map_cons, List.cons.injEq, List.forall₂_cons, h _ _ hab, ih]

/-- The same for lists that need not be related. -/
theorem map_eq_iff_all (h : ∀ a b, f a = f b ↔ Q a b) : xs.map f = ys.map f ↔ List.Forall₂ Q xs ys := by
  induction xs generalizing ys with
  | nil => cases ys <;> simp
  | cons a xs ih =>
    cases ys with
    | nil => simp
    | cons b ys => rw [List.map_cons, List.map_cons, List.cons.injEq, List.forall₂_cons, h a b, ih]

/-- What is logged of two values is the same exactly when the log shows the same of them. -/
theorem sanitizeWithin_eq_iff : sanitizeWithin levels x = sanitizeWithin levels y ↔ SameShown levels x y := by
  induction levels generalizing x y with
  | zero =>
    have hlimit : (ascii "[depth-limited]").length ≤ maxStringLength := by decide +kernel
    cases x <;> cases y
    all_goals simp only [sanitizeWithin, SameShown, hidden, Value.str.injEq, shorten_eq_iff, shorten_eq_short hlimit,
      reduceCtorEq]
    all_goals rw [eq_comm, shorten_eq_short hlimit, eq_comm]
  | succ levels ih =>
    cases x <;> cases y
    all_goals simp only [sanitizeWithin, SameShown, Value.str.injEq, shorten_eq_iff, reduceCtorEq]
    case arr.arr xs ys =>
      rw [Value.arr.injEq, withMark_eq_iff (by simp) (by simp), map_eq_iff_all fun a b => ih]
    case obj.obj fs gs =>
      rw [Value.obj.injEq]
      apply map_eq_iff_all
      intro a b
      rw [Prod.mk.injEq]
      apply and_congr_right
      intro hk
      rw [hk]
      by_cases hs : isSensitive b.1 = true
      · simp [hs]
      · simp [hs, ih]

theorem differItems_iff {xs ys : List Value} : DifferItems xs ys ↔ List.Forall₂ DifferOnly xs ys := by
  induction xs generalizing ys with
  | nil => cases ys <;> simp [DifferItems]
  | cons x xs ih =>
    cases ys with
    | nil => simp [DifferItems]
    | cons y ys => rw [DifferItems, List.forall₂_cons, ih]

theorem differMembers_iff {fs gs : Members} : DifferMembers fs gs ↔
    List.Forall₂ (fun a b => a.1 = b.1 ∧ (isCredential a.1 = true ∨ DifferOnly a.2 b.2)) fs gs := by
  induction fs generalizing gs with
  | nil => cases gs <;> simp [DifferMembers]
  | cons x fs ih =>
    cases gs with
    | nil => simp [DifferMembers]
    | cons y gs => rw [DifferMembers, List.forall₂_cons, ih]

/-- Objects with the same keys have the same keys logged. -/
theorem loggedMembers_forall₂ {R : String × Value → String × Value → Prop} {fs gs : Members}
    (hk : ∀ a b, R a b → a.1 = b.1) (h : List.Forall₂ R fs gs) :
    List.Forall₂ R (loggedMembers fs) (loggedMembers gs) := by
  refine List.rel_filter (fun a b hab => ?_) (List.forall₂_take maxObjectKeys h)
  dsimp only
  rw [hk a b hab]

/-- Values that differ only in credentials are logged alike exactly when the log shows the same of
the credentials that it does not redact. -/
theorem exposedAlike_iff (h : DifferOnly x y) :
    sanitizeWithin levels x = sanitizeWithin levels y ↔ ExposedAlike levels x y := by
  induction levels generalizing x y with
  | zero => cases x <;> cases y <;> simp_all [DifferOnly, sanitizeWithin, ExposedAlike]
  | succ levels ih =>
    cases x <;> cases y
    case arr.arr xs ys =>
      have hitems := differItems_iff.mp h
      have htake := List.forall₂_take maxArrayLength hitems
      have hlen : xs.length = ys.length := hitems.length_eq
      rw [sanitizeWithin, sanitizeWithin, Value.arr.injEq, withMark_eq_iff (by simp) (by simp), ExposedAlike,
        map_eq_iff_forall₂ (fun a b hab => ih hab) htake]
      exact ⟨fun he => he.2, fun he => ⟨hlen, he⟩⟩
    case obj.obj fs gs =>
      have hmembers := loggedMembers_forall₂ (fun a b hab => hab.1) (differMembers_iff.mp h)
      rw [sanitizeWithin, sanitizeWithin, Value.obj.injEq, ExposedAlike]
      refine map_eq_iff_forall₂ (fun a b hab => ?_) hmembers
      obtain ⟨hk, hab⟩ := hab
      by_cases hs : isSensitive a.1 = true
      · simp [← hk, hs]
      · by_cases hc : isCredential a.1 = true
        · simp [← hk, hs, hc, sanitizeWithin_eq_iff]
        · have hd : DifferOnly a.2 b.2 := hab.resolve_left hc
          simp [← hk, hs, hc, ih hd]
    all_goals simp_all [DifferOnly, ExposedAlike]

end Relations

/-- Two bodies that differ only in credentials: they are sanitized to the same exactly when the log
shows the same of the credentials that are no sensitive keys, and then the records are the same. -/
theorem sanitized_alike_iff {x y : Value} (h : DifferOnly x y) :
    (sanitizeForLog x = sanitizeForLog y ↔ ExposedAlike maxDepth x y) ∧
      (sanitizeForLog x = sanitizeForLog y → ∀ (logHttpBody : Bool) (request : Request),
        requestStarted logHttpBody { request with body := x } = requestStarted logHttpBody { request with body := y }) := by
  refine ⟨exposedAlike_iff h, fun hsame logHttpBody request => ?_⟩
  simp only [requestStarted, hsame]

/-- A body of `reset-password`. -/
def resetPassword (otp newPassword : String) : Value :=
  .obj [("email", .str (ascii "mona@shop.eg")), ("otp", .str (ascii otp)),
    ("newPassword", .str (ascii newPassword)), ("confirmPassword", .str (ascii newPassword))]

theorem resetPassword_differOnly (otp otp' newPassword newPassword' : String) :
    DifferOnly (resetPassword otp newPassword) (resetPassword otp' newPassword') := by
  have hotp : isCredential "otp" = true := by decide +kernel
  have hnew : isCredential "newPassword" = true := by decide +kernel
  have hconfirm : isCredential "confirmPassword" = true := by decide +kernel
  simp [resetPassword, DifferOnly, DifferMembers, hotp, hnew, hconfirm]

theorem sanitized_alike_otp :
    sanitizeForLog (resetPassword "000000" "NewSecret123") = sanitizeForLog (resetPassword "246810" "NewSecret123") := by
  apply (sanitized_alike_iff (resetPassword_differOnly _ _ _ _)).1.mpr
  have hotp : isSensitive "otp" = true := by decide +kernel
  simp [resetPassword, ExposedAlike, loggedMembers, maxDepth, maxObjectKeys, hotp, SameShown]

/-- The new password is logged as it is, also after the second pass. -/
theorem shown_new_password {levels : Nat} (hl : 1 ≤ levels) :
    ¬ SameShown levels (sanitizeForLog (resetPassword "000000" "NewSecret123"))
      (sanitizeForLog (resetPassword "000000" "NewSecret456")) := by
  obtain ⟨levels, rfl⟩ : ∃ n, levels = n + 1 := ⟨levels - 1, by omega⟩
  have hsensitive : isSensitive "email" = false ∧ isSensitive "otp" = true ∧ isSensitive "newPassword" = false ∧
      isSensitive "confirmPassword" = false := by decide +kernel
  have hshort : ∀ text ∈ ["mona@shop.eg", "NewSecret123", "NewSecret456"], shorten (ascii text) = ascii text := by
    decide +kernel
  have hne : (ascii "NewSecret123").take maxStringLength ≠ (ascii "NewSecret456").take maxStringLength := by
    decide +kernel
  simp only [List.forall_mem_cons, List.not_mem_nil, false_imp_iff, implies_true, and_true] at hshort
  simp [sanitizeForLog, resetPassword, sanitizeWithin, maxDepth, loggedMembers, maxObjectKeys, SameShown, hsensitive,
    hshort, hne]

/-- Two bodies with different new passwords are told apart in the log. -/
theorem new_password_logged :
    DifferOnly (resetPassword "000000" "NewSecret123") (resetPassword "000000" "NewSecret456") ∧
      sanitizeForLog (resetPassword "000000" "NewSecret123") ≠ sanitizeForLog (resetPassword "000000" "NewSecret456") ∧
      ∃ request : Request,
        requestStarted true { request with body := resetPassword "000000" "NewSecret123" } ≠
          requestStarted true { request with body := resetPassword "000000" "NewSecret456" } := by
  refine ⟨resetPassword_differOnly _ _ _ _, fun h => ?_,
    ⟨ascii "POST", ascii "/auth/reset-password", ascii "10.0.0.7", none, none, .null⟩, fun h => ?_⟩
  · have hshown := shown_new_password (Nat.le_refl 1)
    rw [h] at hshown
    exact hshown (sanitizeWithin_eq_iff.mp rfl)
  · have hmeta := congrArg LogRecord.metaFields h
    have hbody : isSensitive "body" = false := by decide +kernel
    have hshown : SameShown 4 _ _ := sanitizeWithin_eq_iff.mp hmeta
    simp [SameShown, loggedMembers, maxObjectKeys, hbody, shown_new_password] at hshown

end Kayan.Http
