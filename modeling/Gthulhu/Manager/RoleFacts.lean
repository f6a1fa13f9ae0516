/-
Which lists of role names `UpdateUserPermissions` accepts.

The names are checked by counting: as many roles must be found as names are
asked for. Roles are found once each, and a query for no names finds all of
them, so the count is right exactly for lists without repeated names, and for
the empty list where there is no role at all.
-/
import Gthulhu.Manager.AuthorizationFacts

namespace Gthulhu.Manager

open Lib Auth AuthService Prog

/-- As many elements of `l` as `l'` has, all of them among those of `l'`. -/
theorem length_eq_iff_of_subset {α : Type} {l l' : List α} (hnodup : l.Nodup) (hsub : l ⊆ l') :
    l'.length = l.length ↔ l'.Nodup ∧ l' ⊆ l := by
  have hsubperm : l.Subperm l' := hnodup.subperm hsub
  constructor
  · intro hlength
    have hperm : l.Perm l' := hsubperm.perm_of_length_le (by omega)
    exact ⟨hperm.nodup_iff.mp hnodup, hperm.symm.subset⟩
  · rintro ⟨hnodup', hsub'⟩
    have hle : l.length ≤ l'.length := hsubperm.length_le
    have hge : l'.length ≤ l.length := (hnodup'.subperm hsub').length_le
    omega

section

variable {d : Directory} {names : List String}

/-- Every name is that of a stored role. -/
def Directory.HasRoles (d : Directory) (names : List String) : Prop := ∀ name ∈ names, ∃ role ∈ d.roles, role.name = name

/-- The roles found by their names. -/
def Directory.rolesNamed (d : Directory) (names : List String) : List Role :=
  d.roles.filter (QueryRoleOptions.selects { names := names })

/-- **The count** is right exactly when the names are stored, and no name is
repeated; for no names, when there is no role. -/
theorem length_rolesNamed_iff (hnodup : (d.roles.map Role.name).Nodup) :
    names.length = (d.rolesNamed names).length ↔ (names = [] → d.roles = []) ∧ d.HasRoles names ∧ names.Nodup := by
  by_cases hnil : names = []
  · subst hnil
    have hall : d.rolesNamed [] = d.roles := List.filter_eq_self.mpr fun _ _ => by simp [QueryRoleOptions.selects]
    rw [hall]
    simp [Directory.HasRoles, eq_comm]
  · have hfound : ∀ role, role ∈ d.rolesNamed names ↔ role ∈ d.roles ∧ role.name ∈ names := by
      intro role
      simp [Directory.rolesNamed, QueryRoleOptions.selects, hnil]
    have hsub : (d.rolesNamed names).map Role.name ⊆ names := by
      intro name hname
      obtain ⟨role, hrole, rfl⟩ := List.mem_map.mp hname
      exact ((hfound role).mp hrole).2
    have hnames : ((d.rolesNamed names).map Role.name).Nodup := hnodup.sublist (List.filter_sublist.map _)
    have hstored : names ⊆ (d.rolesNamed names).map Role.name ↔ d.HasRoles names := by
      refine forall₂_congr fun name hname => ?_
      simp only [List.mem_map, hfound]
      constructor
      · rintro ⟨role, ⟨hrole, _⟩, heq⟩
        exact ⟨role, hrole, heq⟩
      · rintro ⟨role, hrole, heq⟩
        exact ⟨role, ⟨hrole, heq ▸ hname⟩, heq⟩
    have hcount := length_eq_iff_of_subset hnames hsub
    rw [List.length_map, hstored] at hcount
    rw [hcount]
    exact ⟨fun h => ⟨fun h' => absurd h' hnil, h.2, h.1⟩, fun h => ⟨h.2.2, h.2.1⟩⟩

end

/-- The roles of a user are set to the names. -/
def assignRoles (svc : AuthService) (env : Nat → AuthChoice) (operator : Claims) (id : String) (names : List String)
    (status : Option UserStatus) (d : Directory) : Except Error Unit × Directory :=
  let r := result (Serial.handler (Directory.answer svc) env)
    (updateUserPermissions operator id { roles := some names, status := status }).run (d, 0)
  (r.1, r.2.1)

/-- A stored user, and a caller, for whom nothing but the names can be wrong. -/
structure Assignable (d : Directory) (operator : Claims) (user : User) (status : Option UserStatus) : Prop where
  mem : user ∈ d.users
  id : user.id ≠ .zero
  required : user.hasRequired = true
  operator : ∃ operatorID, operator.getBsonObjectUID = .ok operatorID
  status : ∀ s, status = some s → s.value ≠ 0

section

variable {svc : AuthService} {d : Directory} {env : Nat → AuthChoice} {operator : Claims} {user : User}
  {status : Option UserStatus} {names : List String}

theorem result_checkedRoles (henv : (env 1).outcome = .ok) :
    result (Serial.handler (Directory.answer svc) env) (checkedRoles user (some names)).run (d, 1) =
      (if names.length ≠ (d.rolesNamed names).length then .error (.status 400 "Some roles not found") else .ok names,
        d, 2) := by
  have hfind : result (Serial.handler (Directory.answer svc) env) (queryRoles { names := names }).run (d, 1) =
      (.ok (reorder (env 1).order (d.rolesNamed names)), d, 2) := by
    refine result_mapError ?_
    show ((env 1).outcome.read (.ok (reorder (env 1).order (d.rolesNamed names))), d, 2) = _
    rw [henv]
    rfl
  refine (result_ok_bind hfind).trans ?_
  rw [(reorder_perm _ _).length_eq]
  split <;> rfl

/-- The document a user is replaced with. -/
theorem replace_stored {passwords salt} (hrequired : user.hasRequired = true)
    (hmem : user.id ∈ d.users.map fun user => user.id) :
    ∃ d', d.replace passwords salt user = (.ok true, d') ∧
      { user with password := passwords.marshal salt user.password } ∈ d'.users := by
  unfold Directory.replace
  rw [if_neg (by simp [hrequired]), if_pos hmem]
  refine ⟨_, rfl, ?_⟩
  obtain ⟨other, hother, hid⟩ := List.mem_map.mp hmem
  exact List.mem_map.mpr ⟨other, hother, by rw [if_pos hid]⟩

/-- `UpdateUser` of a user that is stored. -/
theorem result_updateUser {n} (henv : (env (n + 1)).outcome = .ok) (hid : user.id ≠ .zero)
    (hrequired : user.hasRequired = true) (hmem : user.id ∈ d.users.map fun user => user.id) :
    ∃ stored d', result (Serial.handler (Directory.answer svc) env) (updateUser user).run (d, n) =
        (.ok { user with updatedTime := (env n).now.unixMilli }, d', n + 2) ∧
      stored ∈ d'.users ∧ stored.id = user.id ∧ stored.roles = user.roles ∧
      stored.password = svc.passwords.marshal (env (n + 1)).salt user.password := by
  obtain ⟨d', hreplace, hstored⟩ := @replace_stored d { user with updatedTime := (env n).now.unixMilli } svc.passwords
    (env (n + 1)).salt hrequired hmem
  refine ⟨_, d', ?_, hstored, rfl, rfl, rfl⟩
  have hcall : result (Serial.handler (Directory.answer svc) env)
      (withMessage "update user, err" (replaceUser { user with updatedTime := (env n).now.unixMilli })).run (d, n + 1) =
      (.ok true, d', n + 2) := by
    refine result_mapError ?_
    show (((env (n + 1)).outcome.write d (d.replace _ _ _)).1, ((env (n + 1)).outcome.write d (d.replace _ _ _)).2, n + 2) = _
    rw [henv, Outcome.write, hreplace]
  unfold updateUser
  rw [if_neg (by simpa [ObjectID.isZero] using hid)]
  exact result_ok_bind hcall

/-- **What a role assignment comes to**: the count of the names decides. -/
theorem assignRoles_eq (h : Assignable d operator user status) (henv : ∀ n, (env n).outcome = .ok) :
    (names.length ≠ (d.rolesNamed names).length ∧
        assignRoles svc env operator user.id.hex names status d = (.error (.status 400 "Some roles not found"), d)) ∨
      (names.length = (d.rolesNamed names).length ∧ ∃ stored d',
        assignRoles svc env operator user.id.hex names status d = (.ok (), d') ∧
          stored ∈ d'.users ∧ stored.id = user.id ∧ stored.roles = names) := by
  obtain ⟨operatorID, hoperator⟩ := h.operator
  have huid : result (Serial.handler (Directory.answer svc) env) (uidOf "invalid operator ID " operator).run (d, 0) =
      (.ok operatorID, d, 0) := by
    unfold uidOf
    rw [hoperator]
    rfl
  have hrequested : result (Serial.handler (Directory.answer svc) env) (requestedID user.id.hex).run (d, 0) =
      (.ok user.id, d, 0) := by
    unfold requestedID
    rw [objectIDFromHex_hex]
    rfl
  have hchecked := @result_checkedRoles svc d env user names (henv 1)
  unfold assignRoles updateUserPermissions
  rw [result_ok_bind huid, result_ok_bind hrequested,
    result_ok_bind (result_getUserByID svc (henv 0) h.mem)]
  by_cases hcount : names.length = (d.rolesNamed names).length
  · rw [if_neg (by simpa using hcount)] at hchecked
    rw [result_ok_bind hchecked]
    have hrequired : { user with
        roles := names, status := status.getD user.status, updatedTime := (env 2).now.unixMilli, updaterID := operatorID
        : User }.hasRequired = true := by
      have hold := h.required
      cases status with
      | none => simpa [User.hasRequired] using hold
      | some s =>
        have hnew := h.status s rfl
        simp only [User.hasRequired, Bool.and_eq_true] at hold
        simp [User.hasRequired, hold, hnew]
    obtain ⟨stored, d', hresult, hstored, hid, hroles, -⟩ := @result_updateUser svc d env { user with
        roles := names, status := status.getD user.status, updatedTime := (env 2).now.unixMilli, updaterID := operatorID }
      3 (henv 4) h.id hrequired (List.mem_map.mpr ⟨user, h.mem, rfl⟩)
    refine .inr ⟨hcount, stored, d', ?_, hstored, hid, hroles⟩
    have hnow : result (Serial.handler (Directory.answer svc) env) Auth.now.run (d, 2) = (.ok (env 2).now, d, 3) := rfl
    rw [result_ok_bind hnow, result_ok_bind hresult]
    rfl
  · rw [if_pos hcount] at hchecked
    rw [result_error_bind hchecked]
    exact .inl ⟨hcount, rfl⟩

end

/-- The list is accepted exactly if all its names are stored, and is then what the
user has. -/
def AcceptsStored (d : Directory) (user : User) (names : List String) (r : Except Error Unit × Directory) : Prop :=
  (r.1 = .ok () ↔ d.HasRoles names) ∧
    (r.1 = .ok () → ∀ stored ∈ r.2.users, stored.id = user.id → stored.roles = names)

/-- **Exactly the lists of stored roles are accepted**, where no stored name is
repeated and the list is not empty or there is no role. -/
theorem assignRoles_acceptsStored_iff (svc : AuthService) (d : Directory) (hnodup : (d.roles.map Role.name).Nodup)
    {operator : Claims} {user : User} {status : Option UserStatus} (h : Assignable d operator user status)
    {env : Nat → AuthChoice} (henv : ∀ n, (env n).outcome = .ok) (names : List String) :
    AcceptsStored d user names (assignRoles svc env operator user.id.hex names status d) ↔
      (names = [] → d.roles = []) ∧ (d.HasRoles names → names.Nodup) := by
  have hcount := @length_rolesNamed_iff d names hnodup
  have hempty : names = [] → d.HasRoles names := fun hnil => by simp [hnil, Directory.HasRoles]
  rcases @assignRoles_eq svc d env operator user status names h henv with ⟨hne, hr⟩ | ⟨heq, stored, d', hr, hstored, hid, hroles⟩
  · rw [hr, AcceptsStored]
    rw [Ne, hcount] at hne
    simp only [reduceCtorEq, false_iff, false_implies, and_true]
    constructor
    · intro hnot
      exact ⟨fun hnil => absurd (hempty hnil) hnot, fun hhas => absurd hhas hnot⟩
    · intro ⟨hnil, hrepeated⟩ hhas
      exact hne ⟨hnil, hhas, hrepeated hhas⟩
  · rw [hr, AcceptsStored]
    obtain ⟨hnil, hhas, hnames⟩ := hcount.mp heq
    refine ⟨fun _ => ⟨hnil, fun _ => hnames⟩, fun _ => ⟨⟨fun _ => hhas, fun _ => rfl⟩, fun _ other hother hsame => ?_⟩⟩
    obtain rfl : other = stored := List.inj_on_of_nodup_map d'.nodup hother hstored (hsame.trans hid.symm)
    exact hroles

theorem oneUser.assignable : Assignable (withRoles []) ⟨oneUser.id.hex⟩ { oneUser with roles := [] } none where
  mem := List.mem_singleton_self _
  id := by decide
  required := by decide
  operator := ⟨_, objectIDFromHex_hex _⟩
  status := by simp

/-- The user is given the two roles there are. -/
theorem assignRoles_acceptsStored_iff_both :
    (assignRoles oneUser.service (fun _ => {}) ⟨oneUser.id.hex⟩ oneUser.id.hex ["own", "any"] none (withRoles [])).1 =
      .ok () := by
  have henv : ∀ n : Nat, ((fun _ => {} : Nat → AuthChoice) n).outcome = .ok := fun _ => rfl
  have hiff := assignRoles_acceptsStored_iff oneUser.service (withRoles []) (by decide) oneUser.assignable henv
    ["own", "any"]
  have hhas : (withRoles []).HasRoles ["own", "any"] := by
    unfold Directory.HasRoles
    decide
  exact (hiff.mpr ⟨fun hnil => absurd hnil (by decide), fun _ => by decide⟩).1.mpr hhas

/-- A stored name given twice is refused, and so is the empty list. -/
theorem assignRoles_refuses :
    (withRoles []).HasRoles ["any", "any"] ∧
      (assignRoles oneUser.service (fun _ => {}) ⟨oneUser.id.hex⟩ oneUser.id.hex ["any", "any"] none (withRoles [])).1 =
        .error (.status 400 "Some roles not found") ∧
      (assignRoles oneUser.service (fun _ => {}) ⟨oneUser.id.hex⟩ oneUser.id.hex [] none (withRoles [])).1 =
        .error (.status 400 "Some roles not found") := by
  unfold Directory.HasRoles
  decide +kernel

end Gthulhu.Manager
