import Kayan.Lib.RowVersions
import Kayan.Number
import Kayan.Sessions.Jtis
import Mathlib

/-!
# How long a refresh token lives

`JWT_REFRESH_TTL` is read twice: by `parseTtlSeconds` for the row in `auth_refresh_tokens`, and
by the `ms` package for the `exp` of the token. Numbers are exact, less the rounding to doubles,
and a token is signed at the time its row is saved.
-/
namespace Kayan.Sessions
open Auth RowStore Table

/-- The names of a unit, and the milliseconds in it. -/
def msUnits : List (List String × ℚ) :=
  [(["milliseconds", "millisecond", "msecs", "msec", "ms", ""], 1),
   (["seconds", "second", "secs", "sec", "s"], 1000),
   (["minutes", "minute", "mins", "min", "m"], 60 * 1000),
   (["hours", "hour", "hrs", "hr", "h"], 60 * 60 * 1000),
   (["days", "day", "d"], 24 * 60 * 60 * 1000),
   (["weeks", "week", "w"], 7 * 24 * 60 * 60 * 1000),
   (["years", "year", "yrs", "yr", "y"], 365.25 * 24 * 60 * 60 * 1000)]

def msUnit (unit : List Char) : Option ℚ :=
  (msUnits.find? fun x => x.1.any fun name => name.toList == unit.map Char.toLower).map (·.2)

/-- The digits and points of a number. -/
def inNumber (c : Char) : Bool := c.isDigit || c == '.'

/-- `ms` of a number without its sign and a unit, with spaces between them. -/
def unsignedMs (cs : List Char) : Option ℚ :=
  let digits := cs.takeWhile inNumber
  let unit := (cs.dropWhile inNumber).dropWhile (· == ' ')
  if digits.getLast?.any Char.isDigit then
    (mantissa digits).bind fun n => (msUnit unit).map fun m => n * m
  else none

/-- `ms` of a string, in milliseconds; there is none for an empty string or one of more than a
hundred characters. -/
def ms (text : String) : Option ℚ :=
  if 100 < text.toList.length then none
  else
    match text.toList with
    | '-' :: cs => (unsignedMs cs).map (- ·)
    | cs => unsignedMs cs

/-- `exp` of a token signed at `issued`: `Math.floor(iat + ms / 1000)`, with `iat` in seconds. -/
def expOf (span : ℚ) (issued : Nat) : Int := (issued / 1000 : Nat) + ⌊span / 1000⌋

/-- `jsonwebtoken` takes the token for expired. -/
def Expired (span : ℚ) (issued now : Nat) : Prop := expOf span issued ≤ (now / 1000 : Nat)

/-- The row that `saveRefreshTokenJti` stores at `issued`. -/
def rowOf (ttl jti : String) (userId issued : Nat) : RefreshToken :=
  { jti, userId, expiresAt := issued + parseTtlSeconds ttl * 1000 }

/-- The row stands in the table, under the primary key. -/
def Stands (row : RefreshToken) (t : Table Client RefreshToken) : Prop :=
  (∃ i, t.committed i = some row) ∧ ∀ i r, t.committed i = some r → r.jti = row.jti → r = row

/-- `refresh` finds no row for the `jti`. -/
def Missing (now : Nat) (jti : String) (t : Table Client RefreshToken) : Prop :=
  ∃ t', consumeToken now jti t = some (none, t')

/-- The token and its row live equally long. -/
structure EqualLives (ttl : String) (span : ℚ) : Prop where
  lifetimes : (parseTtlSeconds ttl : Int) = ⌊span / 1000⌋
  /-- No refresh with an unexpired token misses its row. -/
  found : ∀ jti userId issued now t, Stands (rowOf ttl jti userId issued) t → ¬ Expired span issued now →
    ¬ Missing now jti t
  /-- No row outlives its token, but for the rest of the second that `iat` rounds off. -/
  gone : ∀ jti userId issued (now : Nat) t, Stands (rowOf ttl jti userId issued) t →
    (expOf span issued + 1) * 1000 ≤ now → Missing now jti t

/-- Digits and one of the units `s`, `m`, `h` and `d`. -/
def Compact (ttl : String) : Prop :=
  ∃ digits unit, ttl.toList = digits ++ [unit] ∧ digits ≠ [] ∧ (∀ c ∈ digits, c.isDigit = true) ∧
    unit ∈ ['s', 'm', 'h', 'd']

section Rows
variable {row : RefreshToken} {t t' : Table Client RefreshToken} {c : Client} {now : Nat}

/-- A row that was saved stands. -/
theorem stands_of_save (hkey : ∀ i j r r', t.committed i = some r → t.committed j = some r' → r.jti = r'.jti → i = j)
    (h : saveToken c row t = some t') : Stands row t' := by
  unfold saveToken at h
  split at h
  · cases h
  · split at h
    · rename_i i hk
      obtain ⟨r₀, hc, hr₀⟩ := committedKey_some hk
      have hi := lt_of_committed hc
      split at h
      · cases h
      · cases h
        refine ⟨⟨i, by rw [committed_store hi, if_pos rfl]⟩, fun j r hr hj => ?_⟩
        rw [committed_store hi] at hr
        split at hr
        · exact (Option.some.inj hr).symm
        · rename_i hne
          have hsame : r.jti = r₀.jti := hj.trans (of_decide_eq_true hr₀).symm
          exact absurd (hkey j i r r₀ hr hc hsame) hne
    · rename_i hk
      cases h
      refine ⟨⟨t.next, by rw [committed_append, if_pos rfl]⟩, fun j r hr hj => ?_⟩
      rw [committed_append] at hr
      split at hr
      · exact (Option.some.inj hr).symm
      · have hnot := committedKey_none hk hr
        exact absurd hj (of_decide_eq_false hnot)

/-- A row that stands is missed when it was revoked or has lapsed. -/
theorem missing_iff (h : Stands row t) :
    Missing now row.jti t ↔ row.revokedAt ≠ none ∨ row.expiresAt ≤ now := by
  obtain ⟨⟨i, hi⟩, hone⟩ := h
  constructor
  · rintro ⟨t', hm⟩
    unfold consumeToken at hm
    split at hm
    · rename_i hk
      have hdead := committedKey_none hk hi
      by_contra hlive
      push Not at hlive
      simp [hlive.1, hlive.2] at hdead
    · rename_i j hk
      obtain ⟨r, hr, -⟩ := committedKey_some hk
      split at hm
      · cases hm
      · simp [hr] at hm
  · intro hdead
    refine ⟨t, ?_⟩
    have hk : committedKey (fun r => r.jti = row.jti && r.revokedAt.isNone && now < r.expiresAt) t = none := by
      by_contra hne
      obtain ⟨j, hk⟩ := Option.ne_none_iff_exists'.mp hne
      obtain ⟨r, hr, hlive⟩ := committedKey_some hk
      simp only [Bool.and_eq_true, decide_eq_true_eq, Option.isNone_iff_eq_none] at hlive
      obtain rfl := hone j r hr hlive.1.1
      rcases hdead with hrev | hlapsed
      · exact hrev hlive.1.2
      · omega
    simp only [consumeToken, hk]

end Rows

section Grammars
variable {ttl : String} {digits : List Char} {unit : Char} {span : ℚ}

theorem mantissa_digits (hne : digits ≠ []) (hd : ∀ c ∈ digits, c.isDigit = true) :
    mantissa digits = some (Nat.ofDigitChars 10 digits 0 : ℚ) := by
  have hpoint : ∀ c ∈ digits, decide (c ≠ '.') = true := by
    intro c hc
    have hne : c ≠ '.' := by
      rintro rfl
      exact absurd (hd _ hc) (by decide)
    simpa using hne
  have htake := List.takeWhile_eq_self_iff.mpr hpoint
  have hdrop := List.dropWhile_eq_nil_iff.mpr hpoint
  simp only [mantissa, htake, hdrop]
  simp [numeral, hne, foldl_digits hd]

theorem unsignedMs_compact (hne : digits ≠ []) (hd : ∀ c ∈ digits, c.isDigit = true)
    (hu : inNumber unit = false) (hs : unit ≠ ' ') :
    unsignedMs (digits ++ [unit]) = (msUnit [unit]).map fun m => (Nat.ofDigitChars 10 digits 0 : ℚ) * m := by
  have hin : ∀ c ∈ digits, inNumber c = true := fun c hc => by simp [inNumber, hd c hc]
  have htake : (digits ++ [unit]).takeWhile inNumber = digits := by
    rw [List.takeWhile_append_of_pos hin]
    simp [hu]
  have hdrop : (digits ++ [unit]).dropWhile inNumber = [unit] := by
    rw [List.dropWhile_append_of_pos hin]
    simp [hu]
  have hlast : digits.getLast?.any Char.isDigit = true := by
    rw [List.getLast?_eq_some_getLast hne]
    exact hd _ (List.getLast_mem hne)
  simp only [unsignedMs, htake, hdrop, hlast, if_true, mantissa_digits hne hd, Option.bind_some]
  simp [hs]

theorem toNat?_digits (hne : digits ≠ []) (hd : ∀ c ∈ digits, c.isDigit = true) :
    (String.ofList digits).toNat? = some (Nat.ofDigitChars 10 digits 0) := by
  have hnat : (String.ofList digits).isNat = true := by
    refine String.isNat_of_isDigit ?_ ?_
    · simpa using hne
    · simpa using hd
  have hkept : digits.filter (· != '_') = digits := by
    refine List.filter_eq_self.mpr fun c hc => ?_
    have hne : c ≠ '_' := by
      rintro rfl
      exact absurd (hd _ hc) (by decide)
    simpa using hne
  rw [String.toNat?_eq_some_ofDigitChars hnat, String.toList_ofList, hkept]

/-- What `parseTtlSeconds` makes of a number with one of its units. -/
theorem parseTtlSeconds_compact (ht : ttl.toList = digits ++ [unit]) (hne : digits ≠ [])
    (hd : ∀ c ∈ digits, c.isDigit = true) (hu : unit ∈ ['s', 'm', 'h', 'd']) :
    ∃ k : Nat, msUnit [unit] = some ((k : ℚ) * 1000) ∧ parseTtlSeconds ttl = Nat.ofDigitChars 10 digits 0 * k := by
  have hrev : ttl.toList.reverse = unit :: digits.reverse := by simp [ht]
  have hall : digits.reverse.all Char.isDigit = true := by simpa using hd
  simp only [parseTtlSeconds, hrev, hall, List.reverse_eq_nil_iff, hne, not_true_eq_false, or_self, if_false,
    List.reverse_reverse, toNat?_digits hne hd, Option.getD_some]
  simp only [List.mem_cons, List.not_mem_nil, or_false] at hu
  rcases hu with rfl | rfl | rfl | rfl
  · exact ⟨1, by decide +kernel, by simp⟩
  · exact ⟨60, by decide +kernel, by simp⟩
  · exact ⟨3600, by decide +kernel, by simp⟩
  · exact ⟨86400, by decide +kernel, by simp⟩

theorem parseTtlSeconds_other (h : ¬ Compact ttl) : parseTtlSeconds ttl = refreshTtlFallbackSeconds := by
  unfold parseTtlSeconds
  split
  · rename_i unit digits hrev
    have ht : ttl.toList = digits.reverse ++ [unit] := by
      rw [← List.reverse_cons, ← hrev, List.reverse_reverse]
    by_cases hd : digits = [] ∨ ¬ digits.all Char.isDigit
    · simp only [if_pos hd]
    · obtain ⟨hne, hall⟩ := not_or.mp hd
      have hu : unit ∉ ['s', 'm', 'h', 'd'] := by
        intro hu
        refine h ⟨digits.reverse, unit, ht, by simpa using hne, fun c hc => ?_, hu⟩
        exact List.all_eq_true.mp (not_not.mp hall) c (List.mem_reverse.mp hc)
      simp only [List.mem_cons, List.not_mem_nil, or_false, not_or] at hu
      simp only [if_neg hd, hu.1, hu.2.1, hu.2.2.1, hu.2.2.2, if_false]
  · rfl

/-- A number with a unit that both read means the same to both. -/
theorem compact_seconds (h : ms ttl = some span) (hc : Compact ttl) : (parseTtlSeconds ttl : Int) = ⌊span / 1000⌋ := by
  obtain ⟨digits, unit, ht, hne, hd, hu⟩ := hc
  obtain ⟨k, hk, hp⟩ := parseTtlSeconds_compact ht hne hd hu
  have hunit : inNumber unit = false ∧ unit ≠ ' ' := by
    simp only [List.mem_cons, List.not_mem_nil, or_false] at hu
    rcases hu with rfl | rfl | rfl | rfl <;> decide
  have hspan : span = (Nat.ofDigitChars 10 digits 0 : ℚ) * (k * 1000) := by
    unfold ms at h
    split at h
    · cases h
    · split at h
      · rename_i hneg
        -- The text starts with a digit, which is no sign.
        rw [ht] at hneg
        obtain ⟨c, cs, rfl⟩ := List.exists_cons_of_ne_nil hne
        obtain rfl : c = '-' := (List.cons.inj hneg).1
        exact absurd (hd '-' List.mem_cons_self) (by decide)
      · rw [ht, unsignedMs_compact hne hd hunit.1 hunit.2, hk, Option.map_some] at h
        exact (Option.some.inj h).symm
  have hseconds : span / 1000 = ((Nat.ofDigitChars 10 digits 0 * k : Nat) : ℚ) := by
    rw [hspan]
    push_cast
    ring
  rw [hp, hseconds, Int.floor_natCast]

end Grammars

section Lives
variable {ttl : String} {span : ℚ}

/-- Equal lifetimes are all that refreshes need. -/
theorem equalLives_of_lifetimes (h : (parseTtlSeconds ttl : Int) = ⌊span / 1000⌋) : EqualLives ttl span := by
  refine ⟨h, fun jti userId issued now t hs hlive hmiss => ?_, fun jti userId issued now t hs hlate => ?_⟩
  · rcases (missing_iff hs).mp hmiss with hrev | hlapsed
    · exact hrev rfl
    · simp only [rowOf] at hlapsed
      simp only [Expired, expOf, ← h] at hlive
      omega
  · refine (missing_iff hs).mpr (Or.inr ?_)
    simp only [rowOf]
    simp only [expOf, ← h] at hlate
    omega

end Lives

end Kayan.Sessions
