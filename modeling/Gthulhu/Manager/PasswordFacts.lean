/-
What is stored for a password.

`decodeHash_encodeHash` and `isArgon2Hash_encodeHash` tie the format, the
pattern, the split at `$` and the scanner together: a hash is read back as it
was written, and is recognised as one, so that encoding a document again leaves
it alone. From there a password survives every operation that does not set one
(**`argon2Hash_stable`**).
-/
import Gthulhu.Manager.Password
import Gthulhu.Manager.AuthPoolFacts

namespace Gthulhu.Manager

open Lib List

/-! ## The format -/

section

variable (p : Argon2idParams) (salt hash : List UInt8)

/-- The version, as it is written. -/
def versionText : List Char := ['v', '='] ++ ((toString argon2Version).toList ++ [])

/-- The parameters, as they are written. -/
def paramsText : List Char :=
  ['m', '='] ++ ((toString p.memory.toNat).toList ++ ([',', 't', '='] ++ ((toString p.iterations.toNat).toList ++
    ([',', 'p', '='] ++ ((toString p.parallelism.toNat).toList ++ [])))))

/-- The parts of a hash between the dollar signs. -/
def hashParts : List (List Char) :=
  [[], "argon2id".toList, versionText, paramsText p, (base64Encode salt).toList, (base64Encode hash).toList]

/-- The literals of the format, cut at the dollar signs. -/
theorem format_parts (version memory iterations parallelism salt hash : List Char) :
    "$argon2id$v=".toList ++ version ++ "$m=".toList ++ memory ++ ",t=".toList ++ iterations ++ ",p=".toList ++
        parallelism ++ "$".toList ++ salt ++ "$".toList ++ hash =
      List.intercalate ['$'] [[], "argon2id".toList, ['v', '='] ++ (version ++ []), ['m', '='] ++ (memory ++ ([',', 't', '='] ++
        (iterations ++ ([',', 'p', '='] ++ (parallelism ++ []))))), salt, hash] := by
  simp [List.intercalate]

theorem toList_encodeHash : (encodeHash p salt hash).toList = List.intercalate ['$'] (hashParts p salt hash) := by
  unfold encodeHash hashParts versionText paramsText
  simp only [String.toList_append]
  exact format_parts _ _ _ _ _ _

theorem dollar_notMem_hashParts : ∀ part ∈ hashParts p salt hash, '$' ∉ part := by
  have hnumber := Delimited.notMem_natRepr (show '$'.isDigit = false by decide)
  have hbase64 : ∀ bs, '$' ∉ (base64Encode bs).toList := fun bs hmem => absurd (mem_base64Encode hmem) (by decide)
  have hversion : '$' ∉ versionText := by
    simp only [versionText, mem_append, hnumber, or_false, not_mem_nil]
    decide
  have hparams : '$' ∉ paramsText p := by
    simp only [paramsText, mem_append, hnumber, false_or, or_false, not_mem_nil]
    decide
  simp only [hashParts, forall_mem_cons]
  exact ⟨by simp, by decide, hversion, hparams, hbase64 _, hbase64 _, by simp⟩

theorem split_encodeHash : split (encodeHash p salt hash) '$' = (hashParts p salt hash).map String.ofList := by
  rw [split, toList_encodeHash, splitOn_intercalate _ (dollar_notMem_hashParts p salt hash) (by simp [hashParts])]

theorem scanVersion_text : scanVersion (String.ofList versionText) = some (argon2Version : Int) := by
  have hversion : argon2Version < 2 ^ 63 := by decide
  simp only [scanVersion, String.toList_ofList, versionText, scanLiteral_append, Option.bind_eq_bind, Option.bind_some]
  rw [scanInt_append hversion (by simp)]
  rfl

theorem scanParams_text : scanParams (String.ofList (paramsText p)) = some (p.memory, p.iterations, p.parallelism) := by
  have hcomma : ∀ cs rest : List Char, ∀ c ∈ (',' :: cs ++ rest).head?, c.isDigit = false := by
    intro cs rest c hc
    cases hc
    decide
  simp only [scanParams, String.toList_ofList, paramsText, scanLiteral_append, Option.bind_eq_bind, Option.bind_some]
  rw [scanUint_append p.memory.toNat_lt (hcomma _ _)]
  simp only [scanLiteral_append, Option.bind_some]
  rw [scanUint_append p.iterations.toNat_lt (hcomma _ _)]
  simp only [scanLiteral_append, Option.bind_some]
  rw [scanUint_append p.parallelism.toNat_lt (by simp)]
  simp

/-- **A hash is read back as it was written.** -/
theorem decodeHash_encodeHash : decodeHash (encodeHash p salt hash) =
    .ok (⟨p.memory, p.iterations, p.parallelism, UInt32.ofNat salt.length, UInt32.ofNat hash.length⟩, salt, hash) := by
  rw [decodeHash, split_encodeHash]
  simp only [hashParts, map_cons, map_nil, scanVersion_text, scanParams_text, String.ofList_toList,
    base64Decode_base64Encode, orError]
  rfl

section

open Pattern

theorem mem_digits {c} (h : c.isDigit = true) : c ∈ "0123456789".toList := by
  have hrange : 48 ≤ c.toNat ∧ c.toNat ≤ 57 := by
    simpa [Char.isDigit, UInt32.le_iff_toNat_le] using h
  have hten : ∀ k : Fin 10, Char.ofNat (48 + k) ∈ "0123456789".toList := by decide
  have hc := hten ⟨c.toNat - 48, by omega⟩
  rwa [show 48 + (c.toNat - 48) = c.toNat by omega, Char.ofNat_toNat] at hc

theorem matches_digits (n : Nat) : Matches digits (toString n).toList :=
  matches_oneOrMore (natRepr_ne_nil n) fun c hc => mem_digits (natRepr_digits n c hc)

theorem matches_base64Text {bs} (h : bs ≠ []) : Matches base64Text (base64Encode bs).toList := by
  refine matches_oneOrMore ?_ fun c hc => mem_append_left _ (mem_base64Encode hc)
  intro hnil
  exact h (base64Encode_eq_empty.mp (String.toList_eq_nil_iff.mp hnil))

/-- **A hash has the shape of one.** -/
theorem isArgon2Hash_encodeHash (hsalt : salt ≠ []) (hhash : hash ≠ []) : isArgon2Hash (encodeHash p salt hash) = true := by
  have hid : Matches (text "id".toList + text "i".toList + text "d".toList) "id".toList := (matches_text _).inl.inl
  have hmatch := ((((((((((((((matches_text "$argon2".toList).mul hid).mul (matches_text "$v=".toList)).mul
    (matches_digits argon2Version)).mul (matches_text "$m=".toList)).mul (matches_digits p.memory.toNat)).mul
    (matches_text ",t=".toList)).mul (matches_digits p.iterations.toNat)).mul (matches_text ",p=".toList)).mul
    (matches_digits p.parallelism.toNat)).mul (matches_text "$".toList)).mul (matches_base64Text hsalt)).mul
    (matches_text "$".toList)).mul (matches_base64Text hhash))
  rw [isArgon2Hash, rmatch_iff]
  unfold encodeHash
  simp only [String.toList_append]
  exact hmatch

end

end

/-! ## Hashing and comparing -/

section

variable {argon2 : Argon2} {p : Argon2idParams} {salt hash : List UInt8} {password text : String}

theorem length_idKey (h : argon2.idKey password salt p = .ok hash) : hash.length = p.keyLength.toNat := by
  unfold Argon2.idKey at h
  split at h
  · cases h
  split at h
  · cases h
  cases h
  exact argon2.length_key _ _ _ _ _ _

theorem createArgon2Hash_ok (h : createArgon2Hash argon2 p salt password = .ok text) :
    ∃ hash, argon2.idKey password salt p = .ok hash ∧ text = encodeHash p salt hash := by
  unfold createArgon2Hash at h
  cases hkey : argon2.idKey password salt p with
  | error err =>
    rw [hkey] at h
    cases h
  | ok hash =>
    rw [hkey] at h
    exact ⟨hash, rfl, (Except.ok.inj h).symm⟩

theorem createArgon2Hash_isOk (hiterations : 1 ≤ p.iterations) (hparallelism : 1 ≤ p.parallelism) :
    ∃ text, createArgon2Hash argon2 p salt password = .ok text := by
  unfold createArgon2Hash Argon2.idKey
  rw [if_neg (UInt32.not_lt.mpr hiterations), if_neg (UInt8.not_lt.mpr hparallelism)]
  exact ⟨_, rfl⟩

/-- The password a hash was made from is accepted. -/
theorem comparePasswordAndHash_encodeHash (h : argon2.idKey password salt p = .ok hash) :
    comparePasswordAndHash argon2 password (encodeHash p salt hash) = .ok true := by
  have hkey : argon2.idKey password salt
      ⟨p.memory, p.iterations, p.parallelism, UInt32.ofNat salt.length, UInt32.ofNat hash.length⟩ = .ok hash := by
    rw [length_idKey h, UInt32.ofNat_toNat]
    exact h
  unfold comparePasswordAndHash
  rw [decodeHash_encodeHash]
  show (do
    let otherHash ← argon2.idKey password salt
      ⟨p.memory, p.iterations, p.parallelism, UInt32.ofNat salt.length, UInt32.ofNat hash.length⟩
    return decide (hash = otherHash)) = Except.ok true
  rw [hkey]
  simp [pure, Except.pure, bind, Except.bind]

/-- A hash that was made is recognised. -/
theorem isArgon2Hash_created (hsalt : salt ≠ []) (hkey : 0 < p.keyLength)
    (h : createArgon2Hash argon2 p salt password = .ok text) : isArgon2Hash text = true := by
  obtain ⟨hash, hidKey, rfl⟩ := createArgon2Hash_ok h
  refine isArgon2Hash_encodeHash p salt hash hsalt fun hnil => ?_
  have hlength := length_idKey hidKey
  rw [hnil, length_nil] at hlength
  rw [UInt32.lt_iff_toNat_lt, ← hlength] at hkey
  exact absurd hkey (by decide)

/-- What is stored for a password that is no hash. -/
theorem marshal_created (hsalt : salt.length = defaultArgon2idParams.saltLength.toNat)
    (hplain : isArgon2Hash password = false) :
    isArgon2Hash (argon2.passwords.marshal salt password) = true ∧
      comparePasswordAndHash argon2 password (argon2.passwords.marshal salt password) = .ok true := by
  obtain ⟨text, htext⟩ : ∃ text, createArgon2Hash argon2 defaultArgon2idParams salt password = .ok text :=
    createArgon2Hash_isOk (by decide) (by decide)
  have hstored : argon2.passwords.marshal salt password = text := by
    unfold Passwords.marshal
    rw [if_neg (show ¬argon2.passwords.isArgon2Hash password = true by simp [Argon2.passwords, hplain])]
    simp [Argon2.passwords, htext, Except.toOption]
  have hne : salt ≠ [] := by
    intro hnil
    rw [hnil] at hsalt
    exact absurd hsalt (by decide)
  rw [hstored]
  obtain ⟨hash, hidKey, rfl⟩ := createArgon2Hash_ok htext
  exact ⟨isArgon2Hash_created hne (by decide) htext, comparePasswordAndHash_encodeHash hidKey⟩

/-- What has the shape of a hash is stored as it is. -/
theorem marshal_hash (h : isArgon2Hash text = true) : argon2.passwords.marshal salt text = text :=
  if_pos h

end

/-! ## Operations that set no password -/

/-- The operation sets the user's password. -/
def AuthOp.setsPassword (u : ObjectID) : AuthOp → Bool
  | .changePassword userClaims _ _ => userClaims.getBsonObjectUID.toOption = some u
  | .resetPassword _ id _ => (objectIDFromHex id).toOption = some u
  | _ => false

/-- The user has the password. -/
structure Directory.HasPassword (d : Directory) (u : ObjectID) (text : String) : Prop where
  mem : u ∈ d.users.map fun user => user.id
  password : ∀ user ∈ d.users, user.id = u → user.password = text

section

variable {svc : AuthService} {u : ObjectID} {text : String}

open Prog

/-- Where the user is found, it is with the password. -/
def Reads (u : ObjectID) (text : String) : Event AuthCall.Resp → Prop
  | ⟨.findUsers _, .ok users⟩ => ∀ user ∈ users, user.id = u → user.password = text
  | _ => True

/-- The user is written with the password. -/
def Rewrites (u : ObjectID) (text : String) : AuthCall → Prop
  | .replaceUser user => user.id = u → user.password = text
  | _ => True

/-- **Every operation that does not set the user's password** writes the user with
the password it has read. -/
theorem program_rewrites {op : AuthOp} (h : op.setsPassword u = false) :
    (op.program svc).Along (fun e => Lawful svc e ∧ Reads u text e) (fun _ _ => ()) (fun _ => Rewrites u text)
      (fun _ _ => True) () := by
  have hwrite : ∀ v user, (∀ doc ∈ v.docs, doc.id = u → doc.password = text) → op.Calls svc v (.replaceUser user) →
      user.id = u → user.password = text := by
    intro v user hv hcall hid
    have hpassword := hcall.2.1
    cases op with
    | changePassword userClaims oldPassword newPassword | resetPassword operator id newPassword =>
      simp [AuthOp.setsPassword, hpassword.1, hid, Except.toOption] at h
    | _ =>
      obtain ⟨before, hmem, hsame, htext⟩ := hpassword
      exact htext ▸ hv before hmem (hsame.trans hid)
  refine (program_along svc op).forget (J := fun v => ∀ doc ∈ v.docs, doc.id = u → doc.password = text)
    (fun v call hv hcall => ?_) (fun v e hv hcall he => ⟨he.1, fun doc hdoc => ?_⟩) (by simp)
  · cases call with
    | replaceUser user => exact hwrite v user hv hcall
    | _ => trivial
  · cases v.move e with
    | read opt user rest hevent hnext =>
      subst hevent
      rw [hnext] at hdoc
      rcases mem_cons.mp hdoc with rfl | hold
      · exact he.2 doc mem_cons_self
      · exact hv doc hold
    | wrote user hevent hnext =>
      subst hevent
      rw [hnext] at hdoc
      rcases mem_cons.mp hdoc with rfl | hold
      · exact hwrite v doc hv hcall
      · exact hv doc hold
    | newJti jti hevent hnext => exact hv doc (by rwa [hnext] at hdoc)
    | forgot hdocs =>
      rw [hdocs] at hdoc
      cases hdoc
    | other htouches hdocs => exact hv doc (hdocs ▸ hdoc)

/-! ## The password in the directory -/

variable {argon2 : Argon2}

/-- A document written with the password it has already. -/
theorem HasPassword.replace {d : Directory} {salt} {user : User} (hsvc : svc.passwords = argon2.passwords)
    (hhash : isArgon2Hash text = true) (h : d.HasPassword u text) (huser : user.id = u → user.password = text) :
    (d.replace svc.passwords salt user).2.HasPassword u text := by
  unfold Directory.replace
  split
  · exact h
  split
  · refine ⟨?_, fun other hother hid => ?_⟩
    · rw [Directory.map_id_replace]
      exact h.mem
    · obtain ⟨stored, hstored, rfl⟩ := mem_map.mp hother
      dsimp only at hid ⊢
      split at hid
      · rename_i hsame
        rw [if_pos hsame]
        rw [hsvc, huser hid, marshal_hash hhash]
      · rename_i hsame
        rw [if_neg hsame]
        exact h.password stored hstored hid
  · exact h

/-- One call, of those that are made. -/
theorem HasPassword.answer {d : Directory} (choice : AuthChoice) {call} (hsvc : svc.passwords = argon2.passwords)
    (hhash : isArgon2Hash text = true) (h : d.HasPassword u text) (hcall : Rewrites u text call) :
    Reads u text ⟨call, (d.answer svc choice call).1⟩ ∧ (d.answer svc choice call).2.HasPassword u text := by
  cases call with
  | findUsers opt =>
    refine ⟨?_, h⟩
    simp only [Directory.answer]
    cases hread : choice.outcome.read (.ok (reorder choice.order (d.users.filter opt.selects))) with
    | error err => trivial
    | ok users =>
      cases Outcome.read_ok hread
      exact fun user huser => h.password user (mem_filter.mp (mem_reorder.mp huser)).1
  | replaceUser user =>
    refine ⟨trivial, ?_⟩
    simp only [Directory.answer]
    cases choice.outcome with
    | ok => exact HasPassword.replace hsvc hhash h hcall
    | refused => exact h
    | lost => exact HasPassword.replace hsvc hhash h hcall
  | findRoles opt => exact ⟨trivial, h⟩
  | now => exact ⟨trivial, h⟩
  | newXid => exact ⟨trivial, h⟩
  | signedString claims => exact ⟨trivial, h⟩

/-- An operation is started that does not set the user's password. -/
def leavesPassword (u : ObjectID) : AuthEvent → Bool
  | .start op => !op.setsPassword u
  | .turn _ _ => true

/-- **Along every interleaving**, the password stays as it is stored. -/
theorem HasPassword.exec {d es s} (hsvc : svc.passwords = argon2.passwords) (hhash : isArgon2Hash text = true)
    (h : d.HasPassword u text) (hleaves : ∀ e ∈ es, leavesPassword u e = true)
    (hrun : (authCalls svc).exec { shared := d } es = some s) : s.shared.HasPassword u text := by
  let J := fun s : AuthPool =>
    s.AllMake (fun e => Lawful svc e ∧ Reads u text e) (Rewrites u text) ∧ s.shared.HasPassword u text
  have hstep : ∀ {s e s'}, J s → leavesPassword u e = true → (authCalls svc).step s e = some s' → J s' := by
    intro s e s' hinv hleaves hstep
    refine hinv.1.step (J := fun d => d.HasPassword u text) (fun op hop => ?_) (fun choice call d hd hcall => ?_) hinv.2 hstep
    · subst hop
      exact program_rewrites (by simpa [leavesPassword] using hleaves)
    · obtain ⟨hreads, hd⟩ := HasPassword.answer choice hsvc hhash hd hcall
      exact ⟨⟨answer_lawful svc choice call d, hreads⟩, hd⟩
  exact (Machine.invariantWhere hstep hrun (Machine.guarded_of_forall hleaves) ⟨fun x hx => by simp at hx, h⟩).2

end

/-- **Hashes are stable and decodable**: the text made of a password is recognised
as a hash, is read back as what it was made of, and accepts the password;
encoding it again leaves it alone, so it outlasts every operation that does not
set the user's password, in any number and interleaving. -/
theorem argon2Hash_stable (argon2 : Argon2) (p : Argon2idParams) (salt : List UInt8) (password : String)
    (hsalt : salt ≠ []) (hkey : 0 < p.keyLength) :
    (1 ≤ p.iterations → 1 ≤ p.parallelism → ∃ text, createArgon2Hash argon2 p salt password = .ok text) ∧
      ∀ text, createArgon2Hash argon2 p salt password = .ok text →
        isArgon2Hash text = true ∧
        (∃ hash, argon2.idKey password salt p = .ok hash ∧
          decodeHash text = .ok ({ p with saltLength := UInt32.ofNat salt.length }, salt, hash)) ∧
        comparePasswordAndHash argon2 password text = .ok true ∧
        (∀ salt', argon2.passwords.marshal salt' text = text) ∧
        ∀ (svc : AuthService) (d : Directory) (u : ObjectID) (es : List AuthEvent) (s : AuthPool),
          svc.passwords = argon2.passwords → d.HasPassword u text → (∀ e ∈ es, leavesPassword u e = true) →
          (authCalls svc).exec { shared := d } es = some s → s.shared.HasPassword u text := by
  refine ⟨fun hiterations hparallelism => createArgon2Hash_isOk hiterations hparallelism, fun text htext => ?_⟩
  have hhash := isArgon2Hash_created hsalt hkey htext
  obtain ⟨hash, hidKey, rfl⟩ := createArgon2Hash_ok htext
  refine ⟨hhash, ⟨hash, hidKey, ?_⟩, comparePasswordAndHash_encodeHash hidKey, fun _ => marshal_hash hhash, ?_⟩
  · rw [decodeHash_encodeHash, length_idKey hidKey, UInt32.ofNat_toNat]
  · intro svc d u es s hsvc hd hleaves hrun
    exact HasPassword.exec hsvc hhash hd hleaves hrun

/-- A key of zeros. -/
def Argon2.zeros : Argon2 where
  key _ _ _ _ _ keyLen := List.replicate keyLen.toNat 0
  length_key _ _ _ _ _ _ := length_replicate

theorem argon2Hash_stable_default :
    ∃ text, createArgon2Hash .zeros defaultArgon2idParams (List.replicate 16 0) "secret" = .ok text ∧
      isArgon2Hash text = true ∧ comparePasswordAndHash .zeros "secret" text = .ok true := by
  have hstable := argon2Hash_stable .zeros defaultArgon2idParams (List.replicate 16 0) "secret" (by decide) (by decide)
  obtain ⟨text, htext⟩ := hstable.1 (by decide) (by decide)
  obtain ⟨hhash, -, hcompare, -⟩ := hstable.2 text htext
  exact ⟨text, htext, hhash, hcompare⟩

end Gthulhu.Manager
