import Kayan.Database
import Kayan.Lib.RowTable
import Kayan.Payload

/-!
# The tables behind sign-up and password reset

`auth_otps`, `auth_otp_attempts`, `pending_registrations`, `users` and
`auth_refresh_tokens`, with the columns that the OTP flows read or write. Times are
milliseconds of one clock.
-/
namespace Kayan.Auth
open RowStore

/-- One call of a service method. A call checks at most one code and opens at most one
transaction. -/
abbrev Client := Nat

inductive OtpPurpose where
  | registration
  | passwordReset
  deriving DecidableEq

/-- An `auth_otps` row. -/
structure AuthOtp where
  id : Nat
  userId : Option Nat
  email : String
  codeHash : String
  salt : String
  purpose : OtpPurpose
  expiresAt : Nat
  usedAt : Option Nat := none
  createdAt : Nat
  deriving DecidableEq

/-- An `auth_otp_attempts` row, less its key. -/
structure OtpAttempts where
  attempts : Nat
  expiresAt : Nat
  deriving DecidableEq

structure PendingRegistration where
  email : String
  phone : Option String
  name : String
  address : Option String
  passwordHash : String
  expiresAt : Nat
  createdAt : Nat
  deriving DecidableEq

inductive UserStatus where
  | active
  | paused
  | banned
  deriving DecidableEq

def UserStatus.text : UserStatus → String
  | active => "active"
  | paused => "paused"
  | banned => "banned"

structure User where
  id : Nat
  name : String
  phone : Option String
  email : Option String
  address : Option String
  passwordHash : String
  status : UserStatus := .active
  isAdmin : Bool := false
  tokenVersion : Nat := 0
  deleted : Bool := false
  deriving DecidableEq

structure RefreshToken where
  jti : String
  userId : Nat
  expiresAt : Nat
  revokedAt : Option Nat := none
  deriving DecidableEq

/-- What a check does to an OTP: it looks the row up, counts a wrong guess when so many
are counted already, answers that there were too many when so many OTPs have been issued,
or accepts the code. -/
inductive OtpAct where
  | lookedUp (time : Nat)
  | counted (attempts : Nat)
  | lockedOut (issued : Nat)
  | accepted
  deriving DecidableEq

structure OtpEvent where
  client : Client
  otp : AuthOtp
  act : OtpAct
  deriving DecidableEq

/-- A write of a pending registration, and the call that made it. -/
structure PendingWrite where
  client : Client
  row : PendingRegistration
  deriving DecidableEq

/-- A user inserted by a committed transaction, with the pending registrations written
until then, newest first. -/
structure Registration where
  client : Client
  user : User
  writes : List PendingWrite

/-- The store. `began` is `NOW()` of each open transaction. The last three fields are
history variables, newest entries first. -/
structure Db where
  clock : Nat
  began : Client → Nat
  otps : List AuthOtp
  nextOtp : Nat
  attempts : String → OtpPurpose → Option OtpAttempts
  pending : Table Client PendingRegistration
  users : Table Client User
  tokens : Table Client RefreshToken
  history : List OtpEvent
  writes : List PendingWrite
  registrations : List Registration

/-- The events of one client. -/
def eventsOf (c : Client) (history : List OtpEvent) : List OtpEvent :=
  history.filter fun e => e.client = c

namespace Db

/-- The event that the check of `c` has come to. -/
def lastEvent (c : Client) (d : Db) : Option OtpEvent := (eventsOf c d.history).head?

/-- The users that the commit of `c` registers. -/
def registered (c : Client) (d : Db) : List Registration :=
  (d.users.pending c).map fun user => ⟨c, user, d.writes⟩

/-- `COMMIT` of client `c`. -/
def commit (c : Client) (d : Db) : Db :=
  { d with
    pending := d.pending.commit c
    users := d.users.commit c
    tokens := d.tokens.commit c
    registrations := d.registered c ++ d.registrations }

/-- `ROLLBACK` of client `c`. -/
def rollback (c : Client) (d : Db) : Db :=
  { d with
    pending := d.pending.rollback c
    users := d.users.rollback c
    tokens := d.tokens.rollback c }

end Db
end Kayan.Auth
