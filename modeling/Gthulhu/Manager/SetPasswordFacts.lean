/-
Setting a password (`CreateNewUser`, `ChangePassword`, `ResetPassword`).

The operations put the password as it was given into the document, and it is
hashed where the document is encoded. What is stored is thus what
`EncryptedPassword.MarshalBSONValue` makes of it (`PasswordOp.stores`): a hash
that accepts the password, unless the password has the shape of a hash itself.
-/
import Gthulhu.Manager.Accounts
import Gthulhu.Manager.PasswordFacts

namespace Gthulhu.Manager

open Lib Prog

inductive PasswordOp where
  | createNewUser (operator : Claims) (username password : String)
  | changePassword (userClaims : Claims) (oldPassword newPassword : String)
  | resetPassword (operator : Claims) (id newPassword : String)

namespace PasswordOp

def program (svc : AuthService) : PasswordOp → Account Unit
  | .createNewUser operator username password => .createNewUser operator username password
  | .changePassword userClaims oldPassword newPassword => .auth (svc.changePassword userClaims oldPassword newPassword)
  | .resetPassword operator id newPassword => .auth (AuthService.resetPassword operator id newPassword)

/-- The password that is set. -/
def password : PasswordOp → String
  | .createNewUser _ _ password => password
  | .changePassword _ _ newPassword => newPassword
  | .resetPassword _ _ newPassword => newPassword

/-- The user it is set for. -/
def IsFor (user : User) : PasswordOp → Prop
  | .createNewUser _ username _ => user.userName = username
  | .changePassword userClaims _ _ => userClaims.getBsonObjectUID = .ok user.id
  | .resetPassword _ id _ => objectIDFromHex id = .ok user.id

end PasswordOp

/-! ## What is stored -/

section

variable {svc : AuthService} {env : Nat → AuthChoice} {d d' : Directory} {n n' : Nat} {es : List (Event AuthCall.Resp)}

open Auth AuthService

/-- The document of user `u` holds what is made of `password`, with some salt of
the environment's. -/
def Directory.Stores (d : Directory) (svc : AuthService) (env : Nat → AuthChoice) (u : ObjectID) (password : String) : Prop :=
  (u ∈ d.users.map fun user => user.id) ∧
    ∃ n, ∀ user ∈ d.users, user.id = u → user.password = svc.passwords.marshal (env n).salt password

theorem replace_true {passwords salt user} (h : d.replace passwords salt user = (.ok true, d')) :
    (user.id ∈ d'.users.map fun user => user.id) ∧
      ∀ stored ∈ d'.users, stored.id = user.id → stored.password = passwords.marshal salt user.password := by
  unfold Directory.replace at h
  split at h
  · cases h
  split at h
  · rename_i hmem
    cases h
    refine ⟨by rw [Directory.map_id_replace]; exact hmem, fun stored hstored hid => ?_⟩
    obtain ⟨other, _, rfl⟩ := List.mem_map.mp hstored
    dsimp only at hid ⊢
    split at hid
    · rename_i hsame
      rw [if_pos hsame]
    · rename_i hsame
      exact absurd hid hsame
  · cases h

/-- A write that succeeds is carried out. -/
theorem write_ok {α σ : Type} {outcome : Outcome} {before after : σ} {result : Except Error α × σ} {a : α}
    (h : outcome.write before result = (.ok a, after)) : result = (.ok a, after) := by
  cases outcome with
  | ok => exact h
  | refused => cases h
  | lost => cases h

/-- An operation that writes once, when it succeeds. -/
theorem AuthOp.MeetsBy.stores {α : Type} {op : AuthOp} {f : α → AuthResult} {x : Auth α} {a}
    (hx : op.MeetsBy svc f {} x) (hop : op.writes = 1)
    (h : Run (Serial.handler (Directory.answer svc) env) x.run (d, n) es (.ok a) (d', n')) :
    ∃ v user, op.Password v user ∧ d'.Stores svc env user.id user.password := by
  refine And.elim (fun hdone hstored => hstored.resolve_left fun hzero => ?_) (Run.along (fun v s => v.writes = 0 ∨
    ∃ v user, op.Password v user ∧ s.1.Stores svc env user.id user.password)
    (fun v s call _ hcall => ⟨answer_lawful svc (env s.2) call s.1, ?_⟩) h hx (.inl rfl))
  on_goal 2 =>
    have hwrites := hdone.1
    omega
  -- after the write there is no call
  have hzero : v.writes = 0 := by
    cases call with
    | findUsers opt => exact hcall
    | replaceUser user => exact Nat.lt_one_iff.mp (hop ▸ hcall.1)
    | _ => exact Nat.lt_one_iff.mp (hop ▸ hcall.resolve_right fun hnone => by omega)
  cases AuthView.move v ⟨call, (s.1.answer svc (env s.2) call).1⟩ with
  | read opt user rest _ hnext => exact .inl (by simpa [hnext, Serial.handler] using hzero)
  | wrote user hevent hnext =>
    cases call with
    | replaceUser _ =>
      obtain ⟨hsame, hr⟩ := Sigma.mk.inj hevent
      cases hsame
      obtain ⟨hmem, hpassword⟩ := replace_true (write_ok (Prod.ext (eq_of_heq hr) rfl))
      exact .inr ⟨v, user, hcall.2.1, hmem, s.2, hpassword⟩
    | _ => cases congrArg Sigma.fst hevent
  | newJti jti _ hnext => exact .inl (by simpa [hnext, Serial.handler] using hzero)
  | forgot _ hwrites | other _ _ hwrites => exact .inl (hwrites.trans hzero)

end

/-! ## In the collections -/

section

variable {svc : AuthService} {env : Nat → AccountChoice} {a a' : Accounts} {n n' : Nat} {es : List (Event AccountCall.Resp)}

/-- Roles are not changed through a directory. -/
theorem answer_roles (svc : AuthService) (choice : AuthChoice) (call : AuthCall) (d : Directory) :
    (d.answer svc choice call).2.roles = d.roles := by
  cases call with
  | replaceUser user =>
    have hreplace : ∀ salt, (d.replace svc.passwords salt user).2.roles = d.roles := by
      intro salt
      unfold Directory.replace
      split
      · rfl
      · split <;> rfl
    simp only [Directory.answer]
    cases choice.outcome with
    | ok => exact hreplace _
    | refused => rfl
    | lost => exact hreplace _
  | _ => rfl

/-- **An operation on sessions runs in the directory** of the collections. -/
theorem auth_run {α : Type} {x : Auth α} {r : Except Error α}
    (h : Run (Serial.handler (Accounts.answer svc) env) (Account.auth x).run (a, n) es r (a', n')) :
    ∃ es', Run (Serial.handler (Directory.answer svc) fun n => (env n).toAuthChoice) x.run (a.directory, n) es' r
      (a'.directory, n') := by
  obtain ⟨es', hrun⟩ := Run.embed_inv h
  refine ⟨es', Run.map_state (fun s : Accounts × Nat => (s.1.directory, s.2)) (fun call s => ?_) hrun⟩
  have hdirectory : (s.1.withUsers (s.1.directory.answer svc (env s.2).toAuthChoice call).2).directory =
      (s.1.directory.answer svc (env s.2).toAuthChoice call).2 := by
    have hroles := answer_roles svc (env s.2).toAuthChoice call s.1.directory
    cases hanswer : (s.1.directory.answer svc (env s.2).toAuthChoice call).2 with
    | mk users roles nodup =>
      rw [hanswer] at hroles
      cases hroles
      rfl
  simp only [Serial.handler, Accounts.answer, hdirectory]

theorem insertUser_ok {passwords salt user} (h : a.insertUser passwords salt user = (.ok (), a')) :
    a'.users = a.users ++ [{ user with password := passwords.marshal salt user.password }] ∧
      ∀ other ∈ a.users, other.userName ≠ user.userName := by
  unfold Accounts.insertUser at h
  split at h
  · cases h
  split at h
  · cases h
  split at h
  · cases h
  · rename_i hname
    cases h
    exact ⟨rfl, fun other hother heq => hname (List.mem_map.mpr ⟨other, hother, heq⟩)⟩

theorem createUser_ok {user s}
    (h : Run (Serial.handler (Accounts.answer svc) env) (Account.createUser user).run s es (.ok ()) (a', n')) :
    ∃ (before : Accounts) (n : Nat) (document : User), before.insertUser svc.passwords (env n).salt document = (.ok (), a') ∧
      document.userName = user.userName ∧ document.password = user.password := by
  obtain ⟨t, _, _, _, -, h2, rfl⟩ := Run.ok_bind_inv h
  obtain ⟨id, s2, _, _, -, h4, rfl⟩ := Run.ok_bind_inv h2
  obtain ⟨-, hinsert⟩ := Run.call_inv (Run.mapError_ok h4)
  simp only [Serial.handler, Prod.mk.injEq] at hinsert
  exact ⟨s2.1, s2.2, _, write_ok (Prod.ext hinsert.1 hinsert.2.1), rfl, rfl⟩

/-- **What is stored**: in the document of the user the operation is for, and there
is one. -/
theorem PasswordOp.stores (op : PasswordOp)
    (h : Run (Serial.handler (Accounts.answer svc) env) (op.program svc).run (a, n) es (.ok ()) (a', n')) :
    (∃ user ∈ a'.users, op.IsFor user) ∧
      ∃ n, ∀ user ∈ a'.users, op.IsFor user → user.password = svc.passwords.marshal (env n).salt op.password := by
  -- the two operations on a user that exists
  have hauth : ∀ u, a'.directory.Stores svc (fun n => (env n).toAuthChoice) u op.password →
      (∀ user, op.IsFor user ↔ user.id = u) → (∃ user ∈ a'.users, op.IsFor user) ∧
        ∃ n, ∀ user ∈ a'.users, op.IsFor user → user.password = svc.passwords.marshal (env n).salt op.password := by
    intro u hstores hfor
    obtain ⟨hmem, k, hstored⟩ := hstores
    obtain ⟨user, huser, hid⟩ := List.mem_map.mp hmem
    exact ⟨⟨user, huser, (hfor user).mpr hid⟩, k, fun user huser hop => hstored user huser ((hfor user).mp hop)⟩
  cases op with
  | createNewUser operator username password =>
    obtain ⟨operatorID, _, _, _, -, h2, rfl⟩ := Run.ok_bind_inv h
    obtain ⟨t, _, _, _, -, h4, rfl⟩ := Run.ok_bind_inv h2
    obtain ⟨before, k, document, hinsert, hname, hpassword⟩ := createUser_ok (Run.mapError_ok h4)
    obtain ⟨husers, hunique⟩ := insertUser_ok hinsert
    rw [hname] at hunique
    rw [husers]
    refine ⟨⟨_, List.mem_append_right _ (List.mem_singleton_self _), hname⟩, k, fun user huser hop => ?_⟩
    rcases List.mem_append.mp huser with hold | hnew
    · exact absurd hop (hunique user hold)
    · rw [List.mem_singleton.mp hnew]
      exact congrArg (svc.passwords.marshal (env k).salt) hpassword
  | changePassword userClaims oldPassword newPassword =>
    obtain ⟨_, hrun⟩ := auth_run h
    obtain ⟨v, user, ⟨huid, hpassword⟩, hstores⟩ := (changePassword_meets userClaims oldPassword newPassword).stores rfl hrun
    rw [hpassword] at hstores
    exact hauth user.id hstores fun other => by simp [PasswordOp.IsFor, huid, eq_comm]
  | resetPassword operator id newPassword =>
    obtain ⟨_, hrun⟩ := auth_run h
    obtain ⟨v, user, ⟨huid, hpassword⟩, hstores⟩ := (resetPassword_meets operator id newPassword).stores rfl hrun
    rw [hpassword] at hstores
    exact hauth user.id hstores fun other => by simp [PasswordOp.IsFor, huid, eq_comm]

end

/-! ## Logging in -/

/-- **The password that was set logs in**, and is not what is stored, exactly if it
does not have the shape of a hash. The salt is as long as the service makes it. -/
theorem setPassword_iff (argon2 : Argon2) (svc : AuthService) (env : Nat → AccountChoice) (op : PasswordOp)
    (hsvc : svc.passwords = argon2.passwords)
    (hsalt : ∀ n, (env n).salt.length = defaultArgon2idParams.saltLength.toNat) (a a' : Accounts)
    (es : List (Event AccountCall.Resp)) (n : Nat)
    (h : Run (Serial.handler (Accounts.answer svc) env) (op.program svc).run (a, 0) es (.ok ()) (a', n)) :
    (∃ user ∈ a'.users, op.IsFor user) ∧
      ∀ user ∈ a'.users, op.IsFor user →
        (comparePasswordAndHash argon2 op.password user.password = .ok true ∧ user.password ≠ op.password ↔
          isArgon2Hash op.password = false) := by
  obtain ⟨hexists, k, hstores⟩ := op.stores h
  refine ⟨hexists, fun user huser hop => ?_⟩
  have hstored := hstores user huser hop
  rw [hsvc] at hstored
  cases hshape : isArgon2Hash op.password with
  | true =>
    rw [marshal_hash hshape] at hstored
    simp [hstored]
  | false =>
    obtain ⟨hhash, hcompare⟩ := marshal_created (hsalt k) hshape
    rw [hstored]
    refine ⟨fun _ => rfl, fun _ => ⟨hcompare, fun heq => ?_⟩⟩
    rw [heq, hshape] at hhash
    cases hhash

/-- The service of the two runs below, with their environment and operation. -/
def zeroSalts.service : AuthService := { oneUser.service with passwords := Argon2.zeros.passwords }

def zeroSalts : Nat → AccountChoice := fun _ => { salt := List.replicate 16 0, newID := oneUser.id }

def zeroSalts.create (password : String) : PasswordOp := .createNewUser ⟨oneUser.id.hex⟩ "user" password

theorem setPassword_iff_plain :
    ∃ a' n es, Run (Serial.handler (Accounts.answer zeroSalts.service) zeroSalts)
        ((zeroSalts.create "secret").program zeroSalts.service).run (⟨[], [], List.nodup_nil⟩, 0) es (.ok ()) (a', n) ∧
      ∃ user ∈ a'.users, comparePasswordAndHash .zeros "secret" user.password = .ok true ∧ user.password ≠ "secret" := by
  obtain ⟨es, ⟨⟩, ⟨a', n⟩, hrun, -⟩ : ∃ es done s, Run (Serial.handler (Accounts.answer zeroSalts.service) zeroSalts)
      ((zeroSalts.create "secret").program zeroSalts.service).run (⟨[], [], List.nodup_nil⟩, 0) es (.ok done) s ∧ True :=
    Run.exists_ok (by decide +kernel)
  have hiff := setPassword_iff .zeros zeroSalts.service zeroSalts (zeroSalts.create "secret") rfl (fun _ => rfl) _ a' es n hrun
  obtain ⟨user, huser, hfor⟩ := hiff.1
  exact ⟨a', n, es, hrun, user, huser, (hiff.2 user huser hfor).mpr (by decide +kernel)⟩

/-- **Locked out**: this password is taken for a hash and stored as it was given, and
then it does not log in. -/
theorem createNewUser_lockedOut :
    ∃ es done s, Run (Serial.handler (Accounts.answer zeroSalts.service) zeroSalts)
        ((zeroSalts.create "$argon2id$v=19$m=16384,t=3,p=2$AA$AQ").program zeroSalts.service).run
        (⟨[], [], List.nodup_nil⟩, 0) es (.ok done) s ∧
      s.1.users.map User.password = ["$argon2id$v=19$m=16384,t=3,p=2$AA$AQ"] ∧
      comparePasswordAndHash .zeros "$argon2id$v=19$m=16384,t=3,p=2$AA$AQ" "$argon2id$v=19$m=16384,t=3,p=2$AA$AQ" =
        .ok false :=
  Run.exists_ok (by decide +kernel)

end Gthulhu.Manager
