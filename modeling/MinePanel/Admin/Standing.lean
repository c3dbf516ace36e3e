/-
  MinePanel.Admin.Standing
  ────────────────────────
  **WHO CAN MAKE WHOM WHAT.**

  The standing of an account is its role and its status.  Twenty-five
  operations share the accounts, in transactions and outside of them, with any
  other call between two statements.  Only five of them may move a standing:

      register, googleLogin    a new USER, pending where approval is required
      initAdminRegister        a new, active ADMIN
      updateRole u r           the role of u, to r, and nothing else
      updateStatus u s         the status of u, to s, and nothing else

  The register keeps every move of a committed standing with the call that
  made it, so the standing of an account is where its last move left it.

    * `body_sanctioned` — no operation writes a standing it may not write;
    * `standing_accounted` — every move in every run is lawful, and the moves
      account for every standing.
-/
import MinePanel.Accounts.Unique

namespace MinePanel.Accounts.Standings

open MinePanel.Db MinePanel.Lib Prog

/-! ## §1. Standings and their moves. -/

/-- A role and a status. -/
structure Standing where
  role : Role
  status : UserStatus
  deriving Repr, DecidableEq

/-- The standing of an account. -/
def ofUser (u : User) : Standing := ⟨u.role, u.status⟩

/-- The standing of `u` in the tables; `none` where there is no such account. -/
def standing (d : Db) (u : UserId) : Option Standing := (d.users.get u).map ofUser

/-- The standing of a self-made account. -/
def newcomer (S : Settings) : Standing :=
  ⟨.user, if S.requireAdminApproval then .pending else .active⟩

/-- The standing an operation gives a new account. -/
def Admits (S : Settings) (x : Standing) : Op → Prop
  | .register _ _ _ => x = newcomer S
  | .googleLogin _ => x = newcomer S
  | .initAdminRegister _ _ _ _ => x = ⟨.admin, .active⟩
  | _ => False

/-- **A lawful move** of the standing of `u` by an operation. -/
inductive Lawful (S : Settings) (u : UserId) : Op → Option Standing → Option Standing → Prop where
  /-- A new account. -/
  | created {op : Op} {x : Standing} (h : Admits S x op) : Lawful S u op none (some x)
  /-- `updateRole` leaves the status, also one that another call has just set. -/
  | role (r : Role) (x : Standing) :
      Lawful S u (.updateRole u r) (some x) (some { x with role := r })
  /-- `updateStatus` leaves the role. -/
  | status (s : UserStatus) (x : Standing) :
      Lawful S u (.updateStatus u s) (some x) (some { x with status := s })

/-! ## §2. What a write does to a standing. -/

section Writes

variable {S : Settings} {op : Op} {u : UserId} {d d' : Db} {x : Write}

/-- What an UPDATE of `users` by an operation may set. -/
def Patches (op : Op) (id : UserId) (set : UserPatch) : Prop :=
  (set.role = none ∧ set.status = none) ∨
    (∃ r, op = .updateRole id r ∧ set.role = some r ∧ set.status = none) ∨
    ∃ s, op = .updateStatus id s ∧ set.role = none ∧ set.status = some s

/-- A write that the operation may make. -/
def Sanctioned (S : Settings) (op : Op) : Write → Prop
  | .insertUser row => Admits S (ofUser row) op
  | .updateUser id set _ => Patches op id set
  | _ => True

/-- The standing of `u` stays, or moves lawfully. -/
def Moves (S : Settings) (op : Op) (u : UserId) (x y : Option Standing) : Prop :=
  y = x ∨ Lawful S u op x y

/-- Two moves of one operation are one. -/
theorem Moves.trans {x y z : Option Standing} (h : Moves S op u x y) (h' : Moves S op u y z) :
    Moves S op u x z := by
  rcases h with rfl | h
  · exact h'
  · rcases h' with rfl | h'
    · exact Or.inr h
    · cases h with
      | created hx =>
          -- an operation that makes accounts makes no other move
          cases h' with
          | role r y => exact absurd hx id
          | status s y => exact absurd hx id
      | role r y =>
          cases h' with
          | role => exact Or.inr (.role r y)
      | status s y =>
          cases h' with
          | status => exact Or.inr (.status s y)

theorem standing_insert (row : User) :
    standing (d.apply (.insertUser row)) u = standing d u ∨
      (standing d u = none ∧ standing (d.apply (.insertUser row)) u = some (ofUser row)) := by
  unfold standing
  cases hget : d.users.get u with
  | some r => exact Or.inl (by rw [get_insert_of_some hget])
  | none =>
      by_cases hu : u = row.id
      · subst hu
        exact Or.inr ⟨rfl, by rw [get_insert_self hget]; rfl⟩
      · refine Or.inl ?_
        show (((d.users.insert row).getD d.users).get u).map ofUser = _
        cases hins : d.users.insert row with
        | none => rw [Option.getD_none, hget]
        | some t => rw [Option.getD_some, Table.get_insert hins, if_neg fun h => hu h.symm, hget]

theorem standing_update (id : UserId) (set : UserPatch) (now : Timestamp) :
    standing (d.apply (.updateUser id set now)) u = if u = id then
      (standing d u).map fun x => ⟨set.role.getD x.role, set.status.getD x.status⟩
    else standing d u := by
  unfold standing
  rw [get_update]
  cases hget : d.users.get u with
  | none => simp
  | some r =>
      have hid : r.id = u := Table.get_key hget
      by_cases hu : u = id
      · have hpatch : patchUser id set now r = set.apply now r := if_pos (hid.trans hu)
        rw [if_pos hu, Option.map_some, hpatch]
        rfl
      · have hpatch : patchUser id set now r = r := if_neg fun h => hu (hid.symm.trans h)
        rw [if_neg hu, Option.map_some, hpatch]

/-- A sanctioned write moves a standing lawfully, if at all. -/
theorem moves_apply (hx : Sanctioned S op x) :
    Moves S op u (standing d u) (standing (d.apply x) u) := by
  cases x with
  | insertUser row =>
      rcases standing_insert (d := d) (u := u) row with heq | ⟨hnone, hsome⟩
      · exact Or.inl heq
      · rw [hnone, hsome]
        exact Or.inr (.created hx)
  | updateUser id set now =>
      rw [standing_update]
      split
      next hu =>
        subst hu
        cases standing d u with
        | none => exact Or.inl rfl
        | some y =>
            rcases hx with ⟨hr, hs⟩ | ⟨r, rfl, hr, hs⟩ | ⟨s, rfl, hr, hs⟩
            · rw [hr, hs]
              exact Or.inl rfl
            · rw [hr, hs]
              exact Or.inr (.role r y)
            · rw [hr, hs]
              exact Or.inr (.status s y)
      next => exact Or.inl rfl
  | _ => exact Or.inl rfl

theorem moves_foldl {ws : List Write} (h : ∀ x ∈ ws, Sanctioned S op x) (d : Db) :
    Moves S op u (standing d u) (standing (ws.foldl Db.apply d) u) := by
  induction ws generalizing d with
  | nil => exact Or.inl rfl
  | cons x ws ih =>
      have hhead := moves_apply (S := S) (u := u) (d := d) (h x List.mem_cons_self)
      exact hhead.trans (ih (fun y hy => h y (List.mem_cons_of_mem _ hy)) _)

end Writes

/-! ## §3. What an operation writes. -/

section Bodies

variable {S : Settings} {op : Op} {α β : Type}

/-- A step whose writes the operation may make. -/
def Steps (S : Settings) (op : Op) : ∀ {β : Type}, Act β → Prop
  | _, .query (.insertUser values) => Admits S ⟨values.role, values.status⟩ op
  | _, .query (.updateUser id _ set) => Patches op id set
  | _, _ => True

/-- Every step of the call is one the operation may take. -/
def Sanctions (S : Settings) (op : Op) (c : Call α) : Prop :=
  Only (fun _ a => Steps S op a) (fun _ => True) c

/-- A patch without the power over standings sets neither column. -/
theorem patches_of_powers {id : UserId} {set : UserPatch} (h : Power.standing ∉ set.powers) :
    Patches op id set := by
  refine Or.inl ?_
  by_contra hset
  refine h ?_
  unfold UserPatch.powers
  cases hr : set.role with
  | some r => simp
  | none =>
      cases hs : set.status with
      | some s => simp
      | none => exact absurd ⟨hr, hs⟩ hset

theorem steps_of_powers {a : Act β} (hstanding : Power.standing ∉ a.powers)
    (haccount : Power.account ∉ a.powers) : Steps S op a := by
  cases a with
  | query s =>
      cases s with
      | insertUser values => exact absurd List.mem_cons_self haccount
      | updateUser id cond set => exact patches_of_powers hstanding
      | _ => trivial
  | _ => trivial

/-- A call with neither power is sanctioned by every operation. -/
theorem sanctions_of_within (ps : List Power) {c : Call α} (h : Within ps c)
    (hstanding : Power.standing ∉ ps) (haccount : Power.account ∉ ps) : Sanctions S op c :=
  only_mono (fun _ ha => steps_of_powers (fun hp => hstanding (ha hp)) fun hp => haccount (ha hp))
    (fun _ _ => trivial) h

theorem sanctions_query {s : Stmt α} (h : Steps S op (.query s)) : Sanctions S op (query s) := by
  refine ⟨h, fun b => ?_⟩
  cases b with
  | ok r => trivial
  | error e => trivial

theorem sanctions_ite {b : Prop} [Decidable b] {c c' : Call α} (h : Sanctions S op c)
    (h' : Sanctions S op c') : Sanctions S op (if b then c else c') := by
  split
  next => exact h
  next => exact h'

theorem sanctions_transaction {c : Call α} (h : Sanctions S op c) :
    Sanctions S op (transaction c) := by
  have hstart : Sanctions S op (orThrow .begin) :=
    sanctions_of_within [.transact] (within_orThrow (List.Subset.refl _)) (by decide) (by decide)
  have hend : Sanctions S op (orThrow .commit) :=
    sanctions_of_within [.transact] (within_orThrow (List.Subset.refl _)) (by decide) (by decide)
  unfold transaction guarded
  refine only_bind hstart fun _ => only_bind (only_tryCatch h fun e _ => ?_) fun r => ?_
  · exact ⟨trivial, fun _ => trivial⟩
  · exact only_bind hend fun _ => trivial

/-- Parts that write nothing about accounts. -/
theorem sanctions_quiet {c : Call α} (h : Within [] c) : Sanctions S op c :=
  sanctions_of_within [] h (by decide) (by decide)

theorem sanctions_registerUser (email username password : String) :
    Sanctions S (.register email username password) (registerUser S email username password) := by
  unfold registerUser createUser
  refine only_bind (sanctions_quiet (within_query (List.nil_subset _))) fun userExists => ?_
  refine only_guard (fun _ => trivial) fun _ => ?_
  refine only_bind (sanctions_quiet (within_assertPasswordWithinByteLimit password)) fun _ => ?_
  refine only_bind (sanctions_quiet (within_bcryptHash S password)) fun hash => ?_
  exact only_bind (sanctions_query (show _ = newcomer S from rfl)) fun _ => trivial

/-- Every candidate name gets the same standing. -/
theorem sanctions_createProviderUser (credential : String) (identity : ProviderIdentity)
    (providerId username : String) (attempt left : Nat) :
    Sanctions S (.googleLogin credential)
      (createProviderUser S identity providerId username attempt left) := by
  induction left generalizing attempt with
  | zero => trivial
  | succ left ih =>
      unfold createProviderUser candidateName insertAccount
      refine only_bind (sanctions_quiet (within_ite (within_ret _)
        (within_bind (within_perform (List.nil_subset _)) fun _ => within_ret _))) fun name => ?_
      refine only_bind (only_tryCatch (only_bind
        (sanctions_query (show _ = newcomer S from rfl)) fun _ => trivial) fun _ _ =>
        sanctions_quiet (within_ite (within_ret _) (within_fail _))) fun created => ?_
      cases created with
      | some user => trivial
      | none =>
          refine only_bind (sanctions_quiet (within_lookupIdentity _ _)) fun resolution => ?_
          cases resolution with
          | some found => trivial
          | none => exact ih (attempt + 1)

theorem sanctions_googleLogin (credential : String) :
    Sanctions S (.googleLogin credential) (googleLogin S credential) := by
  have hsession : ∀ user : User, Sanctions S (.googleLogin credential)
      ((issueProviderSession S user).bind fun session =>
        (ret (some session) : Call (Option AuthTokens))) := by
    intro user
    refine sanctions_of_within [.issue] ?_ (by decide) (by decide)
    exact within_bind (within_issueProviderSession S user (by decide)) fun _ => within_ret _
  unfold googleLogin resolveProviderIdentity
  refine only_bind (sanctions_of_within [.challenge]
    (within_consumeCredential S credential (by decide)) (by decide) (by decide)) fun claims => ?_
  refine only_bind (only_guard (fun _ => trivial) fun _ => ?_) fun resolution => ?_
  · refine only_bind (sanctions_quiet (within_lookupIdentity _ _)) fun resolution => ?_
    cases resolution with
    | some found => trivial
    | none =>
        exact only_guard (fun _ => trivial) fun _ =>
          sanctions_createProviderUser credential _ _ _ 0 3
  · cases resolution with
    | linkConfirmationRequired user => trivial
    | authenticated user => exact hsession user
    | created user => exact hsession user

theorem sanctions_initAdminRegister (email username password : String)
    (setupToken : Option String) :
    Sanctions S (.initAdminRegister email username password setupToken)
      (initAdminRegister S email username password setupToken) := by
  unfold initAdminRegister expectedSetupToken createFirstAdmin
  refine only_bind ?_ fun expectedToken => only_guard (fun _ => trivial) fun _ => ?_
  · split
    next => trivial
    next => exact ⟨trivial, fun _ => trivial⟩
  refine only_bind (sanctions_quiet (within_assertPasswordWithinByteLimit password)) fun _ => ?_
  refine only_bind (sanctions_quiet (within_bcryptHash S password)) fun hash => ?_
  refine sanctions_transaction ?_
  refine only_bind (sanctions_query trivial) fun _ => ?_
  refine only_bind (sanctions_query trivial) fun _ => ?_
  refine only_bind (sanctions_query trivial) fun state => ?_
  cases state with
  | none => trivial
  | some initialAdminCreated =>
      refine only_guard (fun _ => trivial) fun _ => ?_
      refine only_bind (sanctions_query (show _ = Standing.mk .admin .active from rfl)) fun _ => ?_
      exact sanctions_query trivial

theorem sanctions_updateStatus (userId : UserId) (status : UserStatus) :
    Sanctions S (.updateStatus userId status) (updateStatus userId status) := by
  have hpatch : Patches (.updateStatus userId status) userId { status := some status } :=
    Or.inr (Or.inr ⟨status, rfl, rfl, rfl⟩)
  unfold updateStatus
  refine sanctions_transaction ?_
  refine only_bind (sanctions_quiet (within_lockedTarget userId)) fun target => ?_
  have hrest : Sanctions S (.updateStatus userId status)
      ((query (.updateUser userId (fun _ => true) { status := some status })).bind
        fun updated => if status = .banned
          then (deleteTokensWhere fun r => r.userId == userId).bind fun _ =>
            toPublicUserOrThrow updated
          else toPublicUserOrThrow updated) := by
    refine only_bind (sanctions_query hpatch) fun updated => ?_
    refine sanctions_of_within [.revoke] ?_ (by decide) (by decide)
    exact within_ite (within_bind (within_deleteTokensWhere (by decide))
      fun _ => within_toPublicUserOrThrow _) (within_toPublicUserOrThrow _)
  refine only_guard (fun _ => trivial) fun _ => sanctions_ite ?_ hrest
  exact only_bind (sanctions_quiet within_assertActiveAdminsRemain) fun _ => hrest

theorem sanctions_updateRole (userId : UserId) (role : Role) :
    Sanctions S (.updateRole userId role) (updateRole userId role) := by
  have hpatch : Patches (.updateRole userId role) userId { role := some role } :=
    Or.inr (Or.inl ⟨role, rfl, rfl, rfl⟩)
  unfold updateRole
  refine sanctions_transaction ?_
  refine only_bind (sanctions_quiet (within_lockedTarget userId)) fun target => ?_
  have hrest : Sanctions S (.updateRole userId role)
      ((query (.updateUser userId (fun _ => true) { role := some role })).bind
        fun updated => (deletePermissionsWhere fun r => r.userId == userId).bind fun _ =>
          toPublicUserOrThrow updated) := by
    refine only_bind (sanctions_query hpatch) fun updated => ?_
    refine sanctions_of_within [.grant] ?_ (by decide) (by decide)
    exact within_bind (within_deletePermissionsWhere (by decide))
      fun _ => within_toPublicUserOrThrow _
  refine only_guard (fun _ => trivial) fun _ => sanctions_ite ?_ hrest
  exact only_bind (sanctions_quiet within_assertActiveAdminsRemain) fun _ => hrest

/-- **No operation writes a standing it may not write.** -/
theorem body_sanctioned (S : Settings) (op : Op) : Sanctions S op (body S op) := by
  have hmap : ∀ {α : Type} {c : Call α} (f : α → Reply), Sanctions S op c →
      Sanctions S op (f <$> c) := fun f hc => only_bind hc fun _ => trivial
  cases op with
  | register email username password => exact hmap _ (sanctions_registerUser _ _ _)
  | googleLogin credential => exact hmap _ (sanctions_googleLogin credential)
  | initAdminRegister email username password setupToken =>
      exact hmap _ (sanctions_initAdminRegister _ _ _ _)
  | updateStatus userId status => exact hmap _ (sanctions_updateStatus userId status)
  | updateRole userId role => exact hmap _ (sanctions_updateRole userId role)
  | _ =>
      -- the other operations have neither power
      exact sanctions_of_within _ (body_within S _) (by simp [Op.powers]) (by simp [Op.powers])

end Bodies

/-! ## §4. The register of moves. -/

/-- A move of a committed standing, with the call that made it. -/
structure Move where
  user : UserId
  caller : Option (Pid × Op)
  before : Option Standing
  after : Option Standing
  deriving Repr, DecidableEq

/-- The moves of a run, the last one first. -/
abbrev Register := List Move

namespace Register

/-- The accounts whose standings differ. -/
def moved (d d' : Db) : List UserId :=
  ((d.users.rows ++ d'.users.rows).map User.id).filter fun u =>
    decide (standing d' u ≠ standing d u)

/-- The register after a step from `d` to `d'`. -/
def record (o : Register) (caller : Option (Pid × Op)) (d d' : Db) : Register :=
  ((moved d d').map fun u => ⟨u, caller, standing d u, standing d' u⟩) ++ o

/-- Where the last move of `u` has left it, from its standing in `d`. -/
def latest (o : Register) (d : Db) (u : UserId) : Option Standing :=
  match o.find? fun m => decide (m.user = u) with
  | some m => m.after
  | none => standing d u

end Register

/-- Every interleaving, with the register of every move, whoever makes it. -/
def register : Watch Act World Env Op Register where
  onStep := fun o w p op _ _ _ w' => o.record (some (p, op)) w.db w'.db
  onAmbient := fun o w w' => o.record none w.db w'.db
  onReboot := fun o w w' => o.record none w.db w'.db

/-- The operation gives `u` the role `r`. -/
def GivesRole (S : Settings) (u : UserId) (r : Role) (op : Op) : Prop :=
  op = .updateRole u r ∨ ∃ x, Admits S x op ∧ x.role = r

/-- The operation gives `u` the status `s`. -/
def GivesStatus (S : Settings) (u : UserId) (s : UserStatus) (op : Op) : Prop :=
  op = .updateStatus u s ∨ ∃ x, Admits S x op ∧ x.status = s

/-- The move was made by a call, and lawfully. -/
def Move.Rightful (S : Settings) (m : Move) : Prop :=
  ∃ p op, m.caller = some (p, op) ∧ Lawful S m.user op m.before m.after

/-- A move of `u` by a call whose operation satisfies `P`. -/
def MovedBy (o : Register) (u : UserId) (P : Op → Prop) : Prop :=
  ∃ m ∈ o, m.user = u ∧ ∃ p op, m.caller = some (p, op) ∧ P op

section Register

variable {S : Settings} {d₀ d d' : Db} {o : Register} {u : UserId} {caller : Option (Pid × Op)}
  {p : Pid} {op : Op}

theorem mem_moved : u ∈ Register.moved d d' ↔ standing d' u ≠ standing d u := by
  unfold Register.moved
  rw [List.mem_filter, decide_eq_true_iff]
  refine ⟨And.right, fun hne => ⟨?_, hne⟩⟩
  -- an account in neither table has no standing in either
  by_contra hnot
  refine hne ?_
  have habsent : ∀ t : Db, t.users.rows ⊆ d.users.rows ++ d'.users.rows → standing t u = none := by
    intro t ht
    unfold standing
    cases hget : t.users.get u with
    | none => rfl
    | some r =>
        have hmem : r ∈ t.users.rows := (Table.get_eq_some.mp hget).1
        exact absurd (List.mem_map.mpr ⟨r, ht hmem, Table.get_key hget⟩) hnot
  rw [habsent d' (List.subset_append_right _ _), habsent d (List.subset_append_left _ _)]

theorem mem_record {m : Move} : m ∈ o.record caller d d' ↔
    (m.caller = caller ∧ m.before = standing d m.user ∧ m.after = standing d' m.user ∧
      standing d' m.user ≠ standing d m.user) ∨ m ∈ o := by
  unfold Register.record
  rw [List.mem_append, List.mem_map]
  refine or_congr ⟨?_, ?_⟩ Iff.rfl
  · rintro ⟨v, hv, rfl⟩
    exact ⟨rfl, rfl, rfl, mem_moved.mp hv⟩
  · rintro ⟨hcaller, hbefore, hafter, hne⟩
    refine ⟨m.user, mem_moved.mpr hne, ?_⟩
    obtain ⟨v, c, x, y⟩ := m
    simp_all

theorem record_of_same (h : ∀ v, standing d' v = standing d v) : o.record caller d d' = o := by
  have hnone : Register.moved d d' = [] :=
    List.eq_nil_iff_forall_not_mem.mpr fun v hv => mem_moved.mp hv (h v)
  unfold Register.record
  rw [hnone]
  rfl

/-- The register knows the standing after a step. -/
theorem latest_record (h : ∀ v, standing d v = o.latest d₀ v) (u : UserId) :
    standing d' u = (o.record caller d d').latest d₀ u := by
  unfold Register.latest Register.record
  rw [List.find?_append]
  by_cases hu : standing d' u = standing d u
  · -- no entry of this step is about `u`
    have hnone : ((Register.moved d d').map fun v => (⟨v, caller, standing d v, standing d' v⟩ :
        Move)).find? (fun m => decide (m.user = u)) = none := by
      rw [List.find?_eq_none]
      intro m hm
      obtain ⟨v, hv, rfl⟩ := List.mem_map.mp hm
      rw [decide_eq_true_iff]
      rintro rfl
      exact mem_moved.mp hv hu
    rw [hnone, Option.none_or, hu]
    exact h u
  · have hsome : ((Register.moved d d').map fun v => (⟨v, caller, standing d v, standing d' v⟩ :
        Move)).find? (fun m => decide (m.user = u)) =
          some ⟨u, caller, standing d u, standing d' u⟩ := by
      rw [List.find?_map]
      have hfind : (Register.moved d d').find? (fun v => decide (v = u)) = some u := by
        cases hv : (Register.moved d d').find? (fun v => decide (v = u)) with
        | none =>
            rw [List.find?_eq_none] at hv
            exact absurd (decide_eq_true rfl) (hv u (mem_moved.mpr hu))
        | some v =>
            have hvu : v = u := by simpa using List.find?_some hv
            rw [hvu]
      have hcomp : ((fun m : Move => decide (m.user = u)) ∘ fun v =>
          (⟨v, caller, standing d v, standing d' v⟩ : Move)) = fun v => decide (v = u) := rfl
      rw [hcomp, hfind]
      rfl
    rw [hsome]
    rfl

theorem MovedBy.record {P : Op → Prop} (h : MovedBy o u P) :
    MovedBy (o.record caller d d') u P := by
  obtain ⟨m, hm, hrest⟩ := h
  exact ⟨m, mem_record.mpr (Or.inr hm), hrest⟩

theorem movedBy_self {P : Op → Prop} (hne : standing d' u ≠ standing d u) (hP : P op) :
    MovedBy (o.record (some (p, op)) d d') u P :=
  ⟨⟨u, some (p, op), standing d u, standing d' u⟩,
    mem_record.mpr (Or.inl ⟨rfl, rfl, rfl, hne⟩), rfl, p, op, rfl, hP⟩

/-- What every role and every status comes from. -/
structure Earned (S : Settings) (d₀ : Db) (o : Register) (d : Db) : Prop where
  role : ∀ u x, standing d u = some x →
    (∃ x₀, standing d₀ u = some x₀ ∧ x₀.role = x.role) ∨ MovedBy o u (GivesRole S u x.role)
  status : ∀ u x, standing d u = some x →
    (∃ x₀, standing d₀ u = some x₀ ∧ x₀.status = x.status) ∨
      MovedBy o u (GivesStatus S u x.status)

theorem Earned.start (S : Settings) (d : Db) : Earned S d [] d where
  role := fun _ x hx => Or.inl ⟨x, hx, rfl⟩
  status := fun _ x hx => Or.inl ⟨x, hx, rfl⟩

/-- A lawful step earns what it gives and keeps the rest. -/
theorem Earned.step (h : Earned S d₀ o d)
    (hmoves : ∀ v, Moves S op v (standing d v) (standing d' v)) :
    Earned S d₀ (o.record (some (p, op)) d d') d' where
  role := by
    intro u x hx
    have hkept : ∀ {y}, standing d u = some y → y.role = x.role →
        (∃ x₀, standing d₀ u = some x₀ ∧ x₀.role = x.role) ∨
          MovedBy (o.record (some (p, op)) d d') u (GivesRole S u x.role) := by
      intro y hy hrole
      rw [← hrole]
      exact (h.role u y hy).imp id MovedBy.record
    by_cases hne : standing d' u = standing d u
    · exact hkept (hne.symm.trans hx) rfl
    · have hlaw := (hmoves u).resolve_left hne
      rw [hx] at hlaw
      generalize hy : standing d u = y at hlaw
      cases hlaw with
      | created hadmits => exact Or.inr (movedBy_self hne (Or.inr ⟨x, hadmits, rfl⟩))
      | role r y => exact Or.inr (movedBy_self hne (Or.inl rfl))
      | status s y => exact hkept hy rfl
  status := by
    intro u x hx
    have hkept : ∀ {y}, standing d u = some y → y.status = x.status →
        (∃ x₀, standing d₀ u = some x₀ ∧ x₀.status = x.status) ∨
          MovedBy (o.record (some (p, op)) d d') u (GivesStatus S u x.status) := by
      intro y hy hstatus
      rw [← hstatus]
      exact (h.status u y hy).imp id MovedBy.record
    by_cases hne : standing d' u = standing d u
    · exact hkept (hne.symm.trans hx) rfl
    · have hlaw := (hmoves u).resolve_left hne
      rw [hx] at hlaw
      generalize hy : standing d u = y at hlaw
      cases hlaw with
      | created hadmits => exact Or.inr (movedBy_self hne (Or.inr ⟨x, hadmits, rfl⟩))
      | role r y => exact hkept hy rfl
      | status s y => exact Or.inr (movedBy_self hne (Or.inl rfl))

end Register

/-! ## §5. Runs. -/

/-- The monitor of a call: it takes the steps its operation may take. -/
def ruling (S : Settings) (op : Op) : Monitor Act (Option Op) where
  allow := fun m a => m = some op ∧ Steps S op a
  next := fun m _ _ m' => m' = m

/-- What holds all along a run: pending writes are sanctioned by the operation
of their call, and the register is right. -/
structure Ruled (S : Settings) (d₀ : Db) (w : World) (o : Register) (gs : Pid → Option Op) :
    Prop where
  pending : ∀ p ws, w.tables.pending p = some ws →
    ∃ op, gs p = some op ∧ ∀ x ∈ ws, Sanctioned S op x
  moves : ∀ m ∈ o, m.Rightful S
  standings : ∀ u, standing w.db u = o.latest d₀ u
  earned : Earned S d₀ o w.db

section Runs

variable {S : Settings} {d₀ : Db} {w w' : World} {o : Register} {gs : Pid → Option Op} {p : Pid}
  {op : Op} {β : Type} {a : Act β} {e : Env} {b : β}

/-- A write that is no INSERT and no UPDATE of an account. -/
theorem sanctioned_other {x : Write} (h : x.updates = none) (ha : Power.account ∉ x.powers) :
    Sanctioned S op x := by
  cases x with
  | insertUser row => exact absurd List.mem_cons_self ha
  | updateUser id set now => cases h
  | _ => trivial

/-- A sanctioned step plans sanctioned writes. -/
theorem sanctioned_may {x : Write} (h : Steps S op a) (hx : a.May x) : Sanctioned S op x := by
  cases a with
  | query s =>
      obtain ⟨now, e, d, hmem⟩ := hx.planned
      cases s with
      | insertUser values =>
          simp only [plan] at hmem
          split at hmem
          next => cases hmem
          next =>
            split at hmem
            next => cases hmem
            next =>
              rw [List.mem_singleton.mp hmem]
              exact h
      | updateUser id cond set =>
          rcases plan_update now e d id cond set with ⟨user, -, -, -, hwrites⟩ | ⟨hwrites, -⟩
          · rw [hwrites] at hmem
            rw [List.mem_singleton.mp hmem]
            exact h
          · rw [hwrites] at hmem
            cases hmem
      | _ =>
          refine sanctioned_other hx.updates fun hp => ?_
          have hpower := hx.powers hp
          simp [Act.powers, Stmt.powers] at hpower
  | _ => exact absurd hx.planned id

/-- A step keeps what is pending sanctioned, and commits only sanctioned
writes. -/
theorem Ruled.writes (h : Ruled S d₀ w o gs) (hallow : (ruling S op).allow (gs p) a)
    (hx : exec S p a e w = some (b, w')) :
    (∀ {ws}, w'.tables.pending p = some ws → ∀ x ∈ ws, Sanctioned S op x) ∧
      ∃ ws : List Write, w'.db = ws.foldl Db.apply w.db ∧ ∀ x ∈ ws, Sanctioned S op x := by
  obtain ⟨hop, hsteps⟩ := hallow
  have hold : ∀ {ws}, w.tables.pending p = some ws → ∀ x ∈ ws, Sanctioned S op x := by
    intro ws hws
    obtain ⟨op', hop', hall⟩ := h.pending p ws hws
    obtain rfl := Option.some.inj (hop'.symm.trans hop)
    exact hall
  have hmay : ∀ x, a.May x → Sanctioned S op x := fun x => sanctioned_may hsteps
  exact ⟨fun hws => (exec_step hx).pending_all hold hmay hws,
    (exec_step hx).committed_eq hold hmay⟩

namespace Ruled

theorem boot (S : Settings) (d : Db) (clock : Timestamp) :
    Ruled S d (World.boot d clock) [] fun _ => none where
  pending := fun _ _ hws => by cases hws
  moves := fun _ hm => absurd hm List.not_mem_nil
  standings := fun _ => rfl
  earned := Earned.start S d

theorem invoke (h : Ruled S d₀ w o gs) (hp : gs p = none) :
    Ruled S d₀ w o (Function.update gs p (some op)) where
  pending := by
    intro q ws hws
    obtain ⟨op', hop', hall⟩ := h.pending q ws hws
    have hne : q ≠ p := by
      rintro rfl
      rw [hp] at hop'
      cases hop'
    exact ⟨op', by rw [Function.update_of_ne hne, hop'], hall⟩
  moves := h.moves
  standings := h.standings
  earned := h.earned

/-- **A step of a call.** -/
theorem step (h : Ruled S d₀ w o gs) (hallow : (ruling S op).allow (gs p) a)
    (hx : exec S p a e w = some (b, w')) :
    Ruled S d₀ w' (o.record (some (p, op)) w.db w'.db) (Function.update gs p (gs p)) := by
  obtain ⟨hpending, ws, hdb, hall⟩ := h.writes hallow hx
  have hmoves : ∀ u, Moves S op u (standing w.db u) (standing w'.db u) := by
    intro u
    rw [hdb]
    exact moves_foldl hall w.db
  rw [Function.update_eq_self]
  refine ⟨?_, ?_, latest_record h.standings, h.earned.step hmoves⟩
  · intro q ws hws
    by_cases hq : q = p
    · subst hq
      exact ⟨op, hallow.1, hpending hws⟩
    · rw [(exec_step hx).pending_of_ne hq] at hws
      exact h.pending q ws hws
  · intro m hm
    rcases mem_record.mp hm with ⟨hcaller, hbefore, hafter, hne⟩ | hm
    · refine ⟨p, op, hcaller, ?_⟩
      rw [hbefore, hafter]
      exact (hmoves m.user).resolve_left hne
    · exact h.moves m hm

/-- The surroundings leave the accounts alone. -/
theorem ambient (h : Ruled S d₀ w o gs) (hx : Accounts.ambient e w = some w') :
    Ruled S d₀ w' (o.record none w.db w'.db) gs := by
  obtain ⟨hpending, -, husers, -⟩ := ambient_frame hx
  have hsame : ∀ u, standing w'.db u = standing w.db u := by
    intro u
    unfold standing
    rw [husers]
  rw [record_of_same hsame]
  refine ⟨?_, h.moves, fun u => (hsame u).trans (h.standings u), ?_, ?_⟩
  · rw [hpending]
    exact h.pending
  · intro u x hux
    exact h.earned.role u x ((hsame u).symm.trans hux)
  · intro u x hux
    exact h.earned.status u x ((hsame u).symm.trans hux)

/-- The process dies with its open transactions. -/
theorem reboot (h : Ruled S d₀ w o gs) (hx : Accounts.reboot e w = some w') (alive : Pid → Bool) :
    Ruled S d₀ w' (o.record none w.db w'.db) fun p => if alive p then gs p else none := by
  cases hx
  have hsame : ∀ u, standing w.tables.crash.committed u = standing w.db u := fun _ => rfl
  show Ruled S d₀ _ (o.record none w.db w.tables.crash.committed) _
  rw [record_of_same hsame]
  exact ⟨fun _ _ hws => (by cases hws), h.moves, h.standings, h.earned⟩

end Ruled

/-- The invariant and the monitor of every call, in every run. -/
theorem ruled_run {clock : Timestamp} {c : Conf}
    (h : (system S).Reach register (Config.init (World.boot d₀ clock)) [] c o) :
    ∃ gs, Ruled S d₀ c.world o gs := by
  have hbody : ∀ op, (body S op).wp (ruling S op) (fun _ _ => True) (fun _ _ => True)
      (some op) := by
    intro op
    refine wp_of_inv (J := fun m => m = some op) (fun a m ha hm => ?_) (fun _ _ _ => trivial)
      (fun _ _ _ _ => trivial) (body_sanctioned S op) rfl
    exact ⟨⟨hm, ha⟩, fun b m' hm' => hm'.trans hm⟩
  obtain ⟨gs, hinv, -⟩ := System.Reach.sound (S := system S) (V := register) (M := ruling S)
    (Q := fun _ _ _ => True) (E := fun _ _ _ => True) some (Ruled S d₀)
    (fun {_ _ _ op} _ => hbody op)
    (fun h hp _ => h.invoke hp)
    (fun h hallow _ hx => ⟨_, rfl, h.step hallow hx⟩)
    (fun h hx => h.ambient hx)
    (fun {_ _ _ e _} alive h hx _ _ => h.reboot (e := e) hx alive)
    (Ruled.boot S d₀ clock) h
  exact ⟨gs, hinv⟩

end Runs

/-! ## §6. No standing out of nowhere. -/

/-- **In every run, whatever the calls and their order: every move of a
standing is lawful, every standing is where its last move left it, and every
role and every status was there at the start, came with the account, or was
given by an `updateRole` or `updateStatus` of that very account.** -/
theorem standing_accounted (S : Settings) (d : Db) (clock : Timestamp) (c : Conf) (o : Register)
    (h : (system S).Reach register (Config.init (World.boot d clock)) [] c o) :
    (∀ m ∈ o, m.Rightful S) ∧ (∀ u, standing c.world.db u = o.latest d u) ∧
      ∀ u x, standing c.world.db u = some x →
        ((∃ x₀, standing d u = some x₀ ∧ x₀.role = x.role) ∨
          MovedBy o u (GivesRole S u x.role)) ∧
        ((∃ x₀, standing d u = some x₀ ∧ x₀.status = x.status) ∨
          MovedBy o u (GivesStatus S u x.status)) := by
  obtain ⟨gs, hruled⟩ := ruled_run h
  refine ⟨hruled.moves, hruled.standings, fun u x hx => ⟨?_, ?_⟩⟩
  · exact hruled.earned.role u x hx
  · exact hruled.earned.status u x hx

/-- Steve is made a MOD while a newcomer registers, and is then banned. -/
def promotedThenBanned : List (Event Env Op) :=
  [.invoke 0 (.updateRole 3 .mod), .step 0 {}, .step 0 {}, .step 0 {},
   .invoke 1 (.register "eve@example.com" "eve" "old-password"), .step 1 {},
   .step 0 {}, .step 1 { text := "$2b$10$abcdefghijklmnopqrstuu" }, .step 0 {}, .step 0 {},
   .step 1 { uuid := 4 }, .step 0 {}, .invoke 2 (.updateStatus 3 .banned), .step 2 {}, .step 2 {},
   .step 2 {}, .step 2 {}, .step 2 {}, .step 2 {}, .step 2 {}]

/-- Steve is a banned MOD, and the newcomer an active USER. -/
def bannedTest (c : Conf) : Bool :=
  decide (standing c.world.db 3 = some ⟨.mod, .banned⟩ ∧
    standing c.world.db 4 = some ⟨.user, .active⟩)

theorem promotedThenBanned_accounted : ∃ c o,
    (system sampleSettings).Reach register (Config.init sampleWorld) [] c o ∧
      standing c.world.db 3 = some ⟨.mod, .banned⟩ ∧
      MovedBy o 3 (GivesRole sampleSettings 3 .mod) ∧
      MovedBy o 3 (GivesStatus sampleSettings 3 .banned) ∧
      MovedBy o 4 (GivesStatus sampleSettings 4 .active) := by
  obtain ⟨c, o, h, ht⟩ := System.Reach.of_replay (S := system sampleSettings) (V := register)
    sampleWorld [] promotedThenBanned (fun c _ => bannedTest c) (by decide +kernel)
  obtain ⟨hsteve, heve⟩ := of_decide_eq_true ht
  obtain ⟨-, -, haccount⟩ := standing_accounted sampleSettings sampleDb 1700000000000 c o h
  have hrole : ¬ ∃ x₀, standing sampleDb 3 = some x₀ ∧ x₀.role = .mod := by decide
  have hstatus : ¬ ∃ x₀, standing sampleDb 3 = some x₀ ∧ x₀.status = .banned := by decide
  have hnew : ¬ ∃ x₀, standing sampleDb 4 = some x₀ ∧ x₀.status = .active := by decide
  exact ⟨c, o, h, hsteve, (haccount 3 _ hsteve).1.resolve_left hrole,
    (haccount 3 _ hsteve).2.resolve_left hstatus, (haccount 4 _ heve).2.resolve_left hnew⟩

end MinePanel.Accounts.Standings
