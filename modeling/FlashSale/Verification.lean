/-
# `AuthService.verifyOtp`: the transaction, and the changes of an account

The transaction that marks a code used and its owner active, and the two single
statements that change an account: the count of a wrong code, and the update by
which an operator disables a user.

A code is read and compared before this transaction begins, and nothing of that is locked.
So the transaction marks a code that may have been used in the meantime, and the two
single statements count on a code that may have changed; what follows from that is in
`OneTimeCodes`.

* `verify_safe`: a verification that commits has marked a code of the user it
  activates, in one step.
-/
import FlashSale.Registration

namespace FlashSale

open Lib (Table Tx Safe Stable Commits applyAll)

/-- The transaction of `verifyOtp`: `markUsed` and `markActive`. Neither update asks for the
state of its row, which was read before the transaction. -/
def verifyTx (otpId user : Uuid) : Program Unit := do
  run (.updateUsed otpId)
  run (.updateStatus user .active)

/-! ### What a commit does -/

inductive AccountChange where
  | verified (otpId user : Uuid)
  | attempted (otpId : Uuid)
  | disabled (user : Uuid)
deriving DecidableEq

def AccountChange.apply : AccountChange → Db → Db
  | .verified otpId user, db => { db with
      otpCodes := db.otpCodes.modify otpId fun o => { o with used := true }
      users := db.users.modify user fun u => { u with status := .active } }
  | .attempted otpId, db => { db with
      otpCodes := db.otpCodes.modify otpId fun o => { o with attempts := o.attempts + 1 } }
  | .disabled user, db => { db with
      users := db.users.modify user fun u => { u with status := .disabled } }

/-- A code that was issued to the user. -/
def Owned (otpId user : Uuid) (db : Db) : Prop :=
  ∃ otp, db.otpCodes.get? otpId = some otp ∧ otp.userId = user

/-- What the change of an account has found. -/
def AccountChange.Found : AccountChange → Db → Prop
  | .verified otpId user, db => Owned otpId user db
  | .attempted otpId, db => ∃ otp, db.otpCodes.get? otpId = some otp
  | .disabled user, db => ∃ row, db.users.get? user = some row

/-- One committed change of an account, as a single step on the committed rows. The rows it was
decided on have been read before, and are not looked at again. -/
structure AccountCommits (change : AccountChange) (db db' : Db) : Prop where
  found : change.Found db
  effect : db' = change.apply db

section Changes

variable (change : AccountChange) (db : Db)

@[simp] theorem AccountChange.apply_products : (change.apply db).products = db.products := by
  cases change <;> rfl

@[simp] theorem AccountChange.apply_flashSales : (change.apply db).flashSales = db.flashSales := by
  cases change <;> rfl

@[simp] theorem AccountChange.apply_flashSaleItems :
    (change.apply db).flashSaleItems = db.flashSaleItems := by
  cases change <;> rfl

@[simp] theorem AccountChange.apply_purchases : (change.apply db).purchases = db.purchases := by
  cases change <;> rfl

@[simp] theorem AccountChange.apply_outbox : (change.apply db).outbox = db.outbox := by
  cases change <;> rfl

/-- The status that a change gives to a user, if any. -/
def AccountChange.status (id : Uuid) : AccountChange → Option UserStatus
  | .verified _ user => if user = id then some .active else none
  | .attempted _ => none
  | .disabled user => if user = id then some .disabled else none

/-- A change of an account keeps every user, up to the status. -/
theorem AccountChange.apply_users (id : Uuid) :
    (change.apply db).users.get? id =
      (db.users.get? id).map fun u => { u with status := (change.status id).getD u.status } := by
  cases change with
  | attempted otpId => simp [AccountChange.apply, AccountChange.status]
  | _ =>
    simp only [AccountChange.apply, AccountChange.status, Table.get?_modify]
    split <;> simp

/-- The code that a change marks used, if any. -/
def AccountChange.uses : AccountChange → Option Uuid
  | .verified otpId _ => some otpId
  | _ => none

/-- The wrong codes that a change counts for a code. -/
def AccountChange.counts (id : Uuid) : AccountChange → Nat
  | .attempted otpId => if otpId = id then 1 else 0
  | _ => 0

/-- A change of an account keeps every code, up to its use and its attempts. -/
theorem AccountChange.apply_otpCodes (id : Uuid) :
    (change.apply db).otpCodes.get? id = (db.otpCodes.get? id).map fun o =>
      { o with
        used := o.used || decide (change.uses = some id)
        attempts := o.attempts + change.counts id } := by
  cases change with
  | disabled user => simp [AccountChange.apply, AccountChange.uses, AccountChange.counts]
  | _ =>
    simp only [AccountChange.apply, AccountChange.uses, AccountChange.counts, Table.get?_modify]
    split
    · rename_i same
      simp [same]
    · rename_i other
      simp [other]

end Changes

/-! ### The outline -/

section Outline

variable {Admits : Env → Prop} {Allowed : Stmt → DbError → Prop}

/-- Among any other transactions, a verification that commits has marked a code of
the user used and the user active. -/
theorem verify_safe (any : ∀ s e, Allowed s e) (otpId user : Uuid) :
    Safe plan Admits Allowed
      (Commits fun _ db db' => AccountCommits (.verified otpId user) db db')
      (verifyTx otpId user) [] [] (Owned otpId user) := by
  unfold verifyTx
  -- `otpCode.update`
  refine Safe.statement fun env db _ owned => ⟨fun _ _ => any _ _, fun ws _ got => ?_⟩
  obtain ⟨rfl, -⟩ := plan_updateUsed got
  refine ⟨Owned otpId user, (stable_owned user).mono (by simp), owned, ?_⟩
  -- `user.update`
  refine Safe.statement fun env db _ owned => ⟨fun _ _ => any _ _, fun ws _ got => ?_⟩
  obtain ⟨rfl, -⟩ := plan_updateStatus got
  refine ⟨Owned otpId user, (stable_owned user).mono (by simp), owned, ?_⟩
  intro db owned
  exact ⟨owned, rfl⟩

end Outline

end FlashSale
