/-
  MinePanel.Accounts.Credentials
  ──────────────────────────────
  **WHAT A STEP DOES TO THE CREDENTIALS OF A USER.**

  The credentials of a user are the columns of `users` that sign-in decides by:
  the second factor and the temporary password.  They move in two ways only, by
  an UPDATE outside a transaction or by the COMMIT of one; the notes of the call
  say which patches these are (`Notes.commits`).

    * `Db.creds` — the committed credentials;
    * `Booked` — the notes of every call agree with its open transaction;
    * `Booked.creds_step` — **a step moves credentials by its own patches**;
    * `Booked.read` — a row that is read shows the committed credentials;
    * `noted_run` — the invariant rule with the notes of every call.
-/
import MinePanel.Accounts.Notes

namespace MinePanel.Accounts

open MinePanel.Db MinePanel.Lib Prog

/-! ## §1. Credentials. -/

/-- The columns of `users` that sign-in decides by, the password apart. -/
structure Credentials where
  totpSecret : Option String
  totpEnabled : Bool
  totpBackupCodes : Option (List String)
  tempPasswordHash : Option String
  tempPasswordExpiresAt : Option Timestamp
  mustChangePassword : Bool
  deriving Repr, DecidableEq

/-- The credentials of a row. -/
def credentials (u : User) : Credentials where
  totpSecret := u.totpSecret
  totpEnabled := u.totpEnabled
  totpBackupCodes := u.totpBackupCodes
  tempPasswordHash := u.tempPasswordHash
  tempPasswordExpiresAt := u.tempPasswordExpiresAt
  mustChangePassword := u.mustChangePassword

/-- The credentials of a new account. -/
def Credentials.blank : Credentials := ⟨none, false, none, none, none, false⟩

/-- What a patch does to credentials. -/
def UserPatch.act (set : UserPatch) (c : Credentials) : Credentials where
  totpSecret := set.totpSecret.getD c.totpSecret
  totpEnabled := set.totpEnabled.getD c.totpEnabled
  totpBackupCodes := set.totpBackupCodes.getD c.totpBackupCodes
  tempPasswordHash := set.tempPasswordHash.getD c.tempPasswordHash
  tempPasswordExpiresAt := set.tempPasswordExpiresAt.getD c.tempPasswordExpiresAt
  mustChangePassword := set.mustChangePassword.getD c.mustChangePassword

/-- An UPDATE acts on the credentials of its row. -/
theorem credentials_apply (set : UserPatch) (now : Timestamp) (u : User) :
    credentials (set.apply now u) = set.act (credentials u) := rfl

/-- A new row has no credentials. -/
theorem credentials_row (v : NewUser) (id : UserId) (now : Timestamp) :
    credentials (v.row id now) = .blank := rfl

/-- A plain patch sets nothing of a temporary credential. -/
theorem UserPatch.IsPlain.temp {set : UserPatch} (h : set.IsPlain) :
    set.tempPasswordHash = none ∧ set.tempPasswordExpiresAt = none ∧
      set.mustChangePassword = none := by
  have hcredential := h.1
  simp only [UserPatch.powers] at hcredential
  cases h₁ : set.tempPasswordHash <;> cases h₂ : set.tempPasswordExpiresAt <;>
    cases h₃ : set.mustChangePassword <;> simp_all

/-- A plain patch leaves credentials alone. -/
theorem UserPatch.IsPlain.act {set : UserPatch} (h : set.IsPlain) (c : Credentials) :
    set.act c = c := by
  have htemp := h.temp
  obtain ⟨-, hsecond⟩ := h
  have htotp : set.totpSecret = none ∧ set.totpEnabled = none ∧ set.totpBackupCodes = none := by
    simp only [UserPatch.powers] at hsecond
    cases h₁ : set.totpSecret <;> cases h₂ : set.totpEnabled <;>
      cases h₃ : set.totpBackupCodes <;> simp_all
  simp [UserPatch.act, htemp, htotp]

/-- What the patches of the user `u` do, one after the other. -/
def enact (u : UserId) (ps : List (UserId × UserPatch)) (c : Credentials) : Credentials :=
  ps.foldl (fun c x => if x.1 = u then x.2.act c else c) c

@[simp] theorem enact_nil (u : UserId) (c : Credentials) : enact u [] c = c := rfl

@[simp] theorem enact_singleton_self (u : UserId) (set : UserPatch) (c : Credentials) :
    enact u [(u, set)] c = set.act c := if_pos rfl

theorem enact_singleton_of_ne {u v : UserId} (h : v ≠ u) (set : UserPatch) (c : Credentials) :
    enact u [(v, set)] c = c := if_neg h

/-- Patches without credentials leave them alone. -/
theorem enact_plain {u : UserId} {ps : List (UserId × UserPatch)} (h : ∀ x ∈ ps, x.2.IsPlain)
    (c : Credentials) : enact u ps c = c := by
  induction ps generalizing c with
  | nil => rfl
  | cons x ps ih =>
      have hx : (if x.1 = u then x.2.act c else c) = c := by
        split
        next => exact (h x List.mem_cons_self).act c
        next => rfl
      show enact u ps (if x.1 = u then x.2.act c else c) = c
      rw [hx]
      exact ih (fun y hy => h y (List.mem_cons_of_mem _ hy)) c

/-- The credentials of `u` in the tables; `blank` without a row. -/
def Db.creds (d : Db) (u : UserId) : Credentials := ((d.users.get u).map credentials).getD .blank

theorem Db.creds_of_get {d : Db} {u : UserId} {user : User} (h : d.users.get u = some user) :
    d.creds u = credentials user := by
  unfold creds
  rw [h]
  rfl

/-- Where there is no row the credentials are blank. -/
theorem Db.creds_of_not_has {d : Db} {u : UserId} (h : ¬ d.has u) : d.creds u = .blank := by
  unfold creds
  rw [show d.users.get u = none by simpa [has] using h]
  rfl

/-! ## §2. Writes. -/

/-- An INSERT into `users` stores a new account. -/
def Write.IsBorn : Write → Prop
  | .insertUser row => ∃ (v : NewUser) (id : UserId) (now : Timestamp), row = v.row id now
  | _ => True

/-- Every row that is planned is born without credentials. -/
theorem plan_born {α : Type} (now : Timestamp) (e : Env) (d : Db) (s : Stmt α) :
    ∀ x ∈ (plan now e d s).writes, x.IsBorn := by
  cases s <;> simp only [plan, Plan.read, Plan.refuse] <;> (repeat' split) <;>
    simp [Write.IsBorn]

/-- A write that is no UPDATE of `users` moves no credentials. -/
theorem creds_apply_of_patch {d : Db} {x : Write} (hborn : x.IsBorn) (hx : x.patch = none)
    (u : UserId) : (d.apply x).creds u = d.creds u := by
  cases x with
  | insertUser row =>
      obtain ⟨v, id, now, rfl⟩ := hborn
      show ((((d.users.insert (v.row id now)).getD d.users).get u).map credentials).getD .blank = _
      cases hins : d.users.insert (v.row id now) with
      | none => rfl
      | some t =>
          show ((t.get u).map credentials).getD .blank = _
          rw [Table.get_insert hins]
          split
          next h =>
            -- the new row shows what a missing one did
            have hnone : d.users.get u = none := by
              rw [← h]
              exact (Table.insert_rows hins).2
            unfold Db.creds
            rw [hnone]
            rfl
          next => rfl
  | updateUser id set now => cases hx
  | _ => rfl

/-- An UPDATE of a row that is there, seen through the credentials. -/
theorem creds_apply_update {d : Db} {id : UserId} (h : d.has id) (set : UserPatch)
    (now : Timestamp) (u : UserId) :
    (d.apply (.updateUser id set now)).creds u = enact u [(id, set)] (d.creds u) := by
  show (((d.users.modify (patchUser id set now) (patchUser_id id set now)).get u).map
    credentials).getD .blank = _
  rw [Table.get_modify]
  cases hget : d.users.get u with
  | none =>
      have hne : id ≠ u := by
        rintro rfl
        rw [Db.has, hget] at h
        cases h
      rw [enact_singleton_of_ne hne]
      unfold Db.creds
      rw [hget]
      rfl
  | some user =>
      have hid : user.id = u := Table.get_key hget
      rw [Db.creds_of_get hget]
      show credentials (patchUser id set now user) = _
      unfold patchUser
      by_cases hu : id = u
      · subst hu
        rw [if_pos hid, enact_singleton_self, credentials_apply]
      · rw [enact_singleton_of_ne hu, if_neg fun heq => hu (heq.symm.trans hid)]

/-- The credentials after a list of writes. -/
theorem creds_foldl {ws : List Write} {d : Db} (hborn : ∀ x ∈ ws, x.IsBorn) (h : Lands d ws)
    (u : UserId) :
    (ws.foldl Db.apply d).creds u = enact u (ws.filterMap Write.patch) (d.creds u) := by
  induction ws generalizing d with
  | nil => rfl
  | cons x ws ih =>
      have htail := ih (fun y hy => hborn y (List.mem_cons_of_mem _ hy)) h.2
      rw [List.foldl_cons, htail]
      cases hx : x.patch with
      | none =>
          rw [creds_apply_of_patch (hborn x List.mem_cons_self) hx, List.filterMap_cons_none hx]
      | some y =>
          obtain ⟨id, set, now, rfl⟩ : ∃ id set now, x = .updateUser id set now := by
            cases x with
            | updateUser id set now => exact ⟨id, set, now, rfl⟩
            | _ => cases hx
          rw [creds_apply_update (h.1 id set rfl)]
          rfl

/-! ## §3. Statements. -/

/-- The patches a statement writes. -/
def Stmt.patches : ∀ {α : Type}, Stmt α → α → List (UserId × UserPatch)
  | _, .updateUser id _ set, r => if r.isSome then [(id, set)] else []
  | _, _, _ => []

/-- The written patches can be read off the answer. -/
theorem plan_patches {α : Type} (now : Timestamp) (e : Env) (d : Db) (s : Stmt α) :
    (plan now e d s).writes.filterMap Write.patch =
      match (plan now e d s).answer with
      | .ok r => s.patches r
      | .error _ => [] := by
  cases s with
  | updateUser id cond set =>
      rcases plan_update now e d id cond set with ⟨user, -, -, hanswer, hwrites⟩ | ⟨hwrites, hno⟩
      · rw [hanswer, hwrites]
        rfl
      · rw [hwrites]
        cases hanswer : (plan now e d (.updateUser id cond set)).answer with
        | error x => rfl
        | ok r =>
            cases r with
            | none => rfl
            | some row => exact absurd hanswer (hno row)
  | _ =>
      simp only [plan, Plan.read, Plan.refuse]
      (repeat' split) <;> rfl

/-! ## §4. Notes and open transactions. -/

namespace Notes

/-- The patches a step commits. -/
def commits (n : Notes) : ∀ {β : Type}, Act β → β → List (UserId × UserPatch)
  | _, .query s, b =>
      match b with
      | .ok r => if n.inside then [] else s.patches r
      | .error _ => []
  | _, .commit, b =>
      match b with
      | .ok _ => n.staged
      | .error _ => []
  | _, _, _ => []

/-- What is left of the notes of a call that has ended, after a reboot. -/
def settle (n : Notes) : Notes := { n with inside := false, staged := [] }

theorem after_inside (n : Notes) {α : Type} (s : Stmt α) (r : α) :
    (n.after s r).inside = n.inside := by
  cases s with
  | updateUser id cond set =>
      show (if r.isSome then n.update id set else n).inside = n.inside
      split <;> rfl
  | _ => rfl

/-- What a statement stages. -/
theorem after_staged (n : Notes) {α : Type} (s : Stmt α) (r : α) :
    (n.after s r).staged = if n.inside then n.staged ++ s.patches r else n.staged := by
  cases s with
  | updateUser id cond set =>
      show (if r.isSome then n.update id set else n).staged = _
      cases r with
      | none => simp [Stmt.patches]
      | some row => rfl
  | _ => simp [Notes.after, Stmt.patches]

theorem after_times (n : Notes) {α : Type} (s : Stmt α) (r : α) :
    (n.after s r).times = n.times := by
  cases s with
  | updateUser id cond set =>
      show (if r.isSome then n.update id set else n).times = n.times
      split <;> rfl
  | _ => rfl

end Notes

/-- **The notes agree with the open transactions.** -/
structure Booked (w : World) (gs : Pid → Notes) : Prop where
  sound : Store.Sound Write.touches w.tables
  inside : ∀ p, (gs p).inside = (w.tables.pending p).isSome
  staged : ∀ p, (gs p).staged = ((w.tables.pending p).getD []).filterMap Write.patch
  born : ∀ p ws, w.tables.pending p = some ws → ∀ x ∈ ws, x.IsBorn
  lands : ∀ p ws, w.tables.pending p = some ws → Lands w.db ws
  times : ∀ p, ∀ t ∈ (gs p).times, t ≤ w.clock

section Steps

variable {S : Settings} {p : Pid} {e : Env} {w w' : World} {gs : Pid → Notes}

/-- What call `p` sees of the credentials of `u`. -/
theorem Booked.view_creds (h : Booked w gs) (p : Pid) (u : UserId) :
    (w.view p).creds u = enact u (gs p).staged (w.db.creds u) := by
  rw [h.staged p]
  unfold World.view
  cases hp : w.tables.pending p with
  | none =>
      rw [Store.view_of_none hp]
      rfl
  | some ws =>
      rw [Store.view_of_some hp]
      exact creds_foldl (h.born p ws hp) (h.lands p ws hp) u

/-- Outside a transaction nothing is staged. -/
theorem Booked.staged_of_outside (h : Booked w gs) (hout : (gs p).inside = false) :
    (gs p).staged = [] := by
  rw [h.staged p]
  have hnone : w.tables.pending p = none := by
    rw [h.inside p] at hout
    simpa using hout
  rw [hnone]
  rfl

/-- **A step moves credentials by its own patches.** -/
theorem Booked.creds_step {β : Type} {a : Act β} {b : β} (h : Booked w gs)
    (hx : exec S p a e w = some (b, w')) (u : UserId) :
    w'.db.creds u = enact u ((gs p).commits a b) (w.db.creds u) := by
  cases a with
  | query s =>
      rcases exec_query hx with ⟨rfl, rfl⟩ | ⟨hb, -, -, rfl⟩
      · rfl
      · have hpatches := plan_patches w.clock e (w.view p) s
        rw [← hb] at hpatches
        cases hp : w.tables.pending p with
        | none =>
            have hout : (gs p).inside = false := by rw [h.inside p, hp]; rfl
            have hview : w.view p = w.db := Store.view_of_none hp
            have hlands := plan_lands w.clock e (w.view p) s
            have hborn := plan_born w.clock e (w.view p) s
            show (w.tables.put _ _ _ _).committed.creds u = _
            rw [Store.put_of_none hp]
            rw [hview] at hlands hborn hpatches ⊢
            show Db.creds (List.foldl Db.apply w.db _) u = _
            rw [creds_foldl hborn hlands, hpatches]
            cases b with
            | error x => rfl
            | ok r => simp [Notes.commits, hout]
        | some ws =>
            have hin : (gs p).inside = true := by rw [h.inside p, hp]; rfl
            show (w.tables.put _ _ _ _).committed.creds u = _
            rw [Store.put_committed_of_some hp]
            cases b with
            | error x => rfl
            | ok r => simp [Notes.commits, hin, World.db]
  | begin =>
      rcases exec_begin hx with ⟨rfl, rfl⟩ | ⟨rfl, -, rfl⟩
      · rfl
      · rfl
  | commit =>
      rcases exec_commit hx with ⟨rfl, rfl⟩ | ⟨rfl, rfl⟩
      · rfl
      · exact h.view_creds p u
  | rollback =>
      rw [exec_rollback hx]
      rfl
  | _ =>
      have htables := exec_silent rfl hx
      show w'.tables.committed.creds u = _
      rw [htables]
      rfl

/-- The lock of a row of `users` protects its credentials. -/
theorem creds_protects (u : UserId) :
    Store.Protects Db.apply Write.touches (.user u) fun d d' => d'.creds u = d.creds u := by
  refine ⟨fun d => rfl, fun h h' => h'.trans h, fun d x hx => ?_⟩
  cases x with
  | insertUser row =>
      have hne : row.id ≠ u := fun h => hx (by rw [← h]; rfl)
      unfold Db.creds
      show ((((d.users.insert row).getD d.users).get u).map credentials).getD .blank = _
      cases hins : d.users.insert row with
      | none => rfl
      | some t =>
          show ((t.get u).map credentials).getD .blank = _
          rw [Table.get_insert hins, if_neg hne]
  | updateUser id set now =>
      have hne : id ≠ u := fun h => hx (by rw [← h]; rfl)
      unfold Db.creds
      show (((d.users.modify (patchUser id set now) (patchUser_id id set now)).get u).map
        credentials).getD .blank = _
      rw [Table.get_modify]
      cases hget : d.users.get u with
      | none => rfl
      | some user =>
          have hid : user.id ≠ id := by
            rw [Table.get_key hget]
            exact hne.symm
          simp [patchUser, hid]
  | _ => rfl

/-- **What one call has staged no other call moves.** -/
theorem Booked.locked {q : Pid} {β : Type} {a : Act β} {b : β} (h : Booked w gs)
    (hx : exec S p a e w = some (b, w')) (hq : q ≠ p) {u : UserId} {set : UserPatch}
    (hstaged : (u, set) ∈ (gs q).staged) : w'.db.creds u = w.db.creds u := by
  rw [h.staged q] at hstaged
  obtain ⟨x, hmem, hpatch⟩ := List.mem_filterMap.mp hstaged
  cases hpending : w.tables.pending q with
  | none =>
      rw [hpending] at hmem
      exact absurd hmem List.not_mem_nil
  | some ws =>
      rw [hpending] at hmem
      cases x with
      | updateUser id set' now =>
          obtain ⟨rfl, -⟩ := Prod.mk.inj (Option.some.inj hpatch)
          exact h.sound.still (exec_step hx) (creds_protects id) (h.sound q ws _ _ hpending hmem rfl) hq
      | _ => cases hpatch

/-- Another call, or a call whose transaction did not move. -/
theorem Booked.keep {gs' : Pid → Notes} (h : Booked w gs)
    (hsound : Store.Sound Write.touches w'.tables) (hhas : ∀ u, w.db.has u → w'.db.has u)
    (hclock : w.clock ≤ w'.clock)
    (hother : ∀ q, q ≠ p → w'.tables.pending q = w.tables.pending q ∧ gs' q = gs q)
    (hself : (gs' p).inside = (w'.tables.pending p).isSome ∧
      (gs' p).staged = ((w'.tables.pending p).getD []).filterMap Write.patch ∧
      (∀ ws, w'.tables.pending p = some ws → (∀ x ∈ ws, x.IsBorn) ∧ Lands w'.db ws) ∧
      ∀ t ∈ (gs' p).times, t ≤ w'.clock) : Booked w' gs' := by
  obtain ⟨hinside, hstaged, hws, htimes⟩ := hself
  refine ⟨hsound, fun q => ?_, fun q => ?_, fun q ws hq => ?_, fun q ws hq => ?_, fun q => ?_⟩ <;>
    by_cases hqp : q = p
  · rw [hqp]
    exact hinside
  · rw [(hother q hqp).1, (hother q hqp).2]
    exact h.inside q
  · rw [hqp]
    exact hstaged
  · rw [(hother q hqp).1, (hother q hqp).2]
    exact h.staged q
  · rw [hqp] at hq
    exact (hws ws hq).1
  · rw [(hother q hqp).1] at hq
    exact h.born q ws hq
  · rw [hqp] at hq
    exact (hws ws hq).2
  · rw [(hother q hqp).1] at hq
    exact (h.lands q ws hq).mono hhas
  · rw [hqp]
    exact htimes
  · rw [(hother q hqp).2]
    exact fun t ht => (h.times q t ht).trans hclock

/-- **A step keeps the books.** -/
theorem Booked.step {β : Type} {a : Act β} {b : β} (h : Booked w gs)
    (hx : exec S p a e w = some (b, w')) :
    Booked w' (Function.update gs p ((gs p).next a b)) := by
  have hclock : w'.clock = w.clock := exec_clock hx
  refine h.keep (p := p) ((exec_step hx).sound h.sound) (fun u => has_step hx) hclock.ge
    (fun q hq => ⟨(exec_step hx).pending_of_ne hq, Function.update_of_ne hq _ _⟩) ?_
  rw [Function.update_self, hclock]
  -- an action that leaves the transaction of `p` alone
  have hsame : ∀ n : Notes, w'.tables.pending p = w.tables.pending p →
      n.inside = (gs p).inside → n.staged = (gs p).staged → (∀ t ∈ n.times, t ≤ w.clock) →
      n.inside = (w'.tables.pending p).isSome ∧
        n.staged = ((w'.tables.pending p).getD []).filterMap Write.patch ∧
        (∀ ws, w'.tables.pending p = some ws → (∀ x ∈ ws, x.IsBorn) ∧ Lands w'.db ws) ∧
        ∀ t ∈ n.times, t ≤ w.clock := by
    intro n hpending hinside hstaged htimes
    rw [hpending, hinside, hstaged]
    exact ⟨h.inside p, h.staged p, fun ws hws =>
      ⟨h.born p ws hws, (h.lands p ws hws).mono fun u => has_step hx⟩, htimes⟩
  -- an action that ends the transaction of `p`
  have hended : ∀ n : Notes, w'.tables.pending p = none → n.inside = false → n.staged = [] →
      n.times = (gs p).times →
      n.inside = (w'.tables.pending p).isSome ∧
        n.staged = ((w'.tables.pending p).getD []).filterMap Write.patch ∧
        (∀ ws, w'.tables.pending p = some ws → (∀ x ∈ ws, x.IsBorn) ∧ Lands w'.db ws) ∧
        ∀ t ∈ n.times, t ≤ w.clock := by
    intro n hpending hinside hstaged htimes
    rw [hpending, hinside, hstaged, htimes]
    exact ⟨rfl, rfl, fun ws hws => (nomatch hws), h.times p⟩
  cases a with
  | query s =>
      rcases exec_query hx with ⟨rfl, rfl⟩ | ⟨hb, -, -, hw'⟩
      · exact hsame _ rfl rfl rfl (h.times p)
      · have hpatches := plan_patches w.clock e (w.view p) s
        rw [← hb] at hpatches
        cases hp : w.tables.pending p with
        | none =>
            have hout : (gs p).inside = false := by rw [h.inside p, hp]; rfl
            have hpending : w'.tables.pending p = w.tables.pending p := by
              rw [hw', hp]
              exact Store.put_pending_of_none hp
            cases b with
            | error x => exact hsame _ hpending rfl rfl (h.times p)
            | ok r =>
                refine hsame _ hpending ((gs p).after_inside s r) ?_ ?_
                · show ((gs p).after s r).staged = _
                  rw [(gs p).after_staged, hout]
                  rfl
                · show ∀ t ∈ ((gs p).after s r).times, t ≤ w.clock
                  rw [(gs p).after_times]
                  exact h.times p
        | some ws =>
            have hin : (gs p).inside = true := by rw [h.inside p, hp]; rfl
            have hstaged := h.staged p
            rw [hp] at hstaged
            have hpending : w'.tables.pending p =
                some (ws ++ (plan w.clock e (w.view p) s).writes) := by
              rw [hw']
              exact Store.put_pending_of_some hp
            have hview : w.view p = ws.foldl Db.apply w.db := Store.view_of_some hp
            have hlands := plan_lands w.clock e (w.view p) s
            rw [hview] at hlands
            have hall := (h.lands p ws hp).append hlands
            rw [← hview] at hall
            refine ⟨?_, ?_, fun ws' hws' => ?_, ?_⟩
            · rw [hpending]
              cases b with
              | error x => exact hin
              | ok r => exact ((gs p).after_inside s r).trans hin
            · rw [hpending, Option.getD_some, List.filterMap_append, hpatches]
              cases b with
              | error x =>
                  rw [List.append_nil]
                  exact hstaged
              | ok r =>
                  show ((gs p).after s r).staged = _
                  rw [(gs p).after_staged, hin, if_pos rfl, hstaged]
                  rfl
            · rw [hpending] at hws'
              obtain rfl := Option.some.inj hws'
              refine ⟨fun x hmem => ?_, hall.mono fun u => has_step hx⟩
              rcases List.mem_append.mp hmem with hold | hnew
              · exact h.born p ws hp x hold
              · exact plan_born w.clock e (w.view p) s x hnew
            · cases b with
              | error x => exact h.times p
              | ok r =>
                  show ∀ t ∈ ((gs p).after s r).times, t ≤ w.clock
                  rw [(gs p).after_times]
                  exact h.times p
  | begin =>
      rcases exec_begin hx with ⟨rfl, rfl⟩ | ⟨rfl, -, rfl⟩
      · exact hsame _ rfl rfl rfl (h.times p)
      · have hpending : (w.tables.begin p).pending p = some [] := Store.begin_pending_self
        rw [hpending]
        refine ⟨rfl, rfl, fun ws hws => ?_, h.times p⟩
        obtain rfl := Option.some.inj hws
        exact ⟨fun x hx => absurd hx List.not_mem_nil, trivial⟩
  | commit =>
      refine hended _ ?_ rfl rfl rfl
      rcases exec_commit hx with ⟨-, rfl⟩ | ⟨-, rfl⟩
      · exact Store.rollback_pending_self
      · exact Store.commit_pending_self
  | rollback =>
      refine hended _ ?_ rfl rfl rfl
      rw [exec_rollback hx]
      exact Store.rollback_pending_self
  | now =>
      have hb : b = w.clock := by
        cases hx
        rfl
      refine hsame _ (by rw [exec_silent rfl hx]) rfl rfl fun t ht => ?_
      rcases List.mem_cons.mp ht with rfl | ht
      · exact hb.le
      · exact h.times p t ht
  | _ => exact hsame _ (by rw [exec_silent rfl hx]) rfl rfl (h.times p)

/-- A new call has nothing in the books. -/
theorem Booked.invoke (h : Booked w gs) (hp : gs p = .idle) (op : Op) :
    Booked w (Function.update gs p (.fresh op)) := by
  refine h.keep (p := p) h.sound (fun _ hu => hu) le_rfl
    (fun q hq => ⟨rfl, Function.update_of_ne hq _ _⟩) ?_
  have hinside := h.inside p
  have hstaged := h.staged p
  rw [hp] at hinside hstaged
  rw [Function.update_self]
  exact ⟨hinside, hstaged, fun ws hws => ⟨h.born p ws hws, h.lands p ws hws⟩,
    fun t ht => absurd ht List.not_mem_nil⟩

theorem Booked.ambient (h : Booked w gs) (hx : ambient e w = some w') : Booked w' gs := by
  obtain ⟨hpending, howner, husers, -, -, hclock, -⟩ := ambient_frame hx
  have hhas : ∀ u, w.db.has u → w'.db.has u := by
    intro u hu
    rw [Db.has, husers]
    exact hu
  refine ⟨?_, ?_, ?_, ?_, ?_, ?_⟩
  · intro q ws x k hq hx' hk
    rw [howner]
    rw [hpending] at hq
    exact h.sound q ws x k hq hx' hk
  · rw [hpending]
    exact h.inside
  · rw [hpending]
    exact h.staged
  · rw [hpending]
    exact h.born
  · rw [hpending]
    exact fun q ws hq => (h.lands q ws hq).mono hhas
  · exact fun q t ht => (h.times q t ht).trans hclock

/-- The surroundings change no credentials. -/
theorem ambient_creds (hx : ambient e w = some w') (u : UserId) : w'.db.creds u = w.db.creds u := by
  unfold Db.creds
  rw [(ambient_frame hx).2.2.1]

/-- A restart closes the books of the calls that died. -/
theorem Booked.reboot (h : Booked w gs) (hx : reboot e w = some w') (alive : Pid → Bool) :
    Booked w' fun p => if alive p then (gs p).settle else .idle := by
  cases hx
  refine ⟨Store.Sound.crash _, fun q => ?_, fun q => ?_, nofun, nofun, fun q => ?_⟩
  · show (if alive q then (gs q).settle else Notes.idle).inside = false
    split <;> rfl
  · show (if alive q then (gs q).settle else Notes.idle).staged = []
    split <;> rfl
  · show ∀ t ∈ (if alive q then (gs q).settle else Notes.idle).times, t ≤ w.clock
    split
    next => exact h.times q
    next => exact fun t ht => absurd ht List.not_mem_nil

theorem Booked.boot (d : Db) (clock : Timestamp) : Booked (World.boot d clock) fun _ => .idle :=
  ⟨Store.Sound.quiet d, fun _ => rfl, fun _ => rfl, nofun, nofun,
    fun _ _ ht => absurd ht List.not_mem_nil⟩

end Steps

/-! ## §5. Reads and UPDATEs. -/

/-- The row of `users` a statement shows. -/
def Stmt.row : ∀ {α : Type}, Stmt α → α → Option User
  | _, .selectUser _, r => r
  | _, .findUser _, r => r
  | _, .selectUserForUpdate _, r => r
  | _, .insertUser _, r => some r
  | _, _, _ => none

/-- The row of `users` a step shows. -/
def Act.row : ∀ {β : Type}, Act β → β → Option User
  | _, .query s, b =>
      match b with
      | .ok r => s.row r
      | .error _ => none
  | _, _, _ => none

/-- The random text a step draws. -/
def Act.drew : ∀ {β : Type}, Act β → β → List String
  | _, .random, text => [text]
  | _, _, _ => []

/-- The UPDATE of `users` that a step makes, where it finds its row. -/
def Act.updated : ∀ {β : Type}, Act β → β → Option (UserId × UserPatch)
  | _, .query s, b =>
      match b with
      | .ok r => (s.patches r).head?
      | .error _ => none
  | _, _, _ => none

/-- The step ends a transaction with success. -/
def Act.committed : ∀ {β : Type}, Act β → β → Bool
  | _, .commit, b =>
      match b with
      | .ok _ => true
      | .error _ => false
  | _, _, _ => false

section Reads

variable {S : Settings} {p : Pid} {op : Op} {e : Env} {w w' : World} {gs : Pid → Notes}

/-- The row in the notes was just read, or was there before. -/
theorem Notes.next_read (n : Notes) {β : Type} (a : Act β) (b : β) {user : User}
    (h : (n.next a b).read = some user) :
    a.row b = some user ∨ (a.row b = none ∧ n.read = some user) := by
  cases a with
  | query s =>
      cases b with
      | error x => exact Or.inr ⟨rfl, h⟩
      | ok r =>
          cases s with
          | selectUser id => exact Or.inl h
          | findUser cond => exact Or.inl h
          | selectUserForUpdate id => exact Or.inl h
          | insertUser v => exact Or.inl h
          | updateUser id cond set =>
              have h : (if r.isSome then n.update id set else n).read = some user := h
              split at h
              next => exact Or.inr ⟨rfl, h⟩
              next => exact Or.inr ⟨rfl, h⟩
          | _ => exact Or.inr ⟨rfl, h⟩
  | begin =>
      cases b with
      | error x => exact Or.inr ⟨rfl, h⟩
      | ok r => exact Or.inr ⟨rfl, h⟩
  | _ => exact Or.inr ⟨rfl, h⟩

/-- What a step draws is noted. -/
theorem Notes.next_drawn (n : Notes) {β : Type} (a : Act β) (b : β) :
    (n.next a b).drawn = n.drawn ++ a.drew b := by
  cases a with
  | query s =>
      cases b with
      | error x => exact (List.append_nil _).symm
      | ok r =>
          cases s with
          | updateUser id cond set =>
              show (if r.isSome then n.update id set else n).drawn = _
              split <;> exact (List.append_nil _).symm
          | _ => exact (List.append_nil _).symm
  | begin =>
      cases b with
      | error x => exact (List.append_nil _).symm
      | ok r => exact (List.append_nil _).symm
  | random => rfl
  | _ => exact (List.append_nil _).symm

/-- What a step has updated is noted. -/
theorem Notes.next_done (n : Notes) {β : Type} (a : Act β) (b : β) :
    (n.next a b).done = n.done ++ (a.updated b).toList := by
  cases a with
  | query s =>
      cases b with
      | error x => exact (List.append_nil _).symm
      | ok r =>
          cases s with
          | updateUser id cond set =>
              cases r with
              | none => exact (List.append_nil _).symm
              | some row => rfl
          | _ => exact (List.append_nil _).symm
  | begin =>
      cases b with
      | error x => exact (List.append_nil _).symm
      | ok r => exact (List.append_nil _).symm
  | _ => exact (List.append_nil _).symm

/-- A call that has staged a credential, or consumed one, keeps the row it has
read. -/
theorem read_next_of_not_plain {n : Notes} {β : Type} {a : Act β} {b : β} (ha : n.allow S op a)
    (hn : ¬ n.IsPlain) : (n.next a b).read = n.read := by
  cases a with
  | query s =>
      cases b with
      | error x => rfl
      | ok r =>
          cases s with
          | selectUser id => exact absurd ha hn
          | findUser cond => exact absurd ha hn
          | selectUserForUpdate id => exact absurd ha hn
          | insertUser v => exact absurd ha hn
          | updateUser id cond set =>
              show (if r.isSome then n.update id set else n).read = n.read
              split <;> rfl
          | _ => rfl
  | begin =>
      cases b with
      | error x => rfl
      | ok r => rfl
  | _ => rfl

/-- A call that has issued stays so. -/
theorem Notes.next_issued (n : Notes) {β : Type} (a : Act β) (b : β)
    (h : (n.next a b).issued = false) : n.issued = false := by
  cases a with
  | query s =>
      cases b with
      | error x => exact h
      | ok r =>
          cases s with
          | updateUser id cond set =>
              have h : (if r.isSome then n.update id set else n).issued = false := h
              split at h
              next => exact h
              next => exact h
          | insertToken v => cases h
          | _ => exact h
  | begin =>
      cases b with
      | error x => exact h
      | ok r => exact h
  | _ => exact h

/-- What is staged was staged before, or by this step; a commit leaves nothing. -/
theorem Notes.next_staged (n : Notes) {β : Type} (a : Act β) (b : β) {x : UserId × UserPatch}
    (h : x ∈ (n.next a b).staged) :
    a.committed b = false ∧ (x ∈ n.staged ∨ (n.inside = true ∧ a.updated b = some x)) := by
  cases a with
  | query s =>
      cases b with
      | error e => exact ⟨rfl, Or.inl h⟩
      | ok r =>
          cases s with
          | updateUser id cond set =>
              cases r with
              | none => exact ⟨rfl, Or.inl h⟩
              | some row =>
                  have h : x ∈ if n.inside then n.staged ++ [(id, set)] else n.staged := h
                  refine ⟨rfl, ?_⟩
                  split at h
                  next hin =>
                    rcases List.mem_append.mp h with hold | hnew
                    · exact Or.inl hold
                    · rw [List.mem_singleton.mp hnew]
                      exact Or.inr ⟨hin, rfl⟩
                  next => exact Or.inl h
          | _ => exact ⟨rfl, Or.inl h⟩
  | begin =>
      cases b with
      | error e => exact ⟨rfl, Or.inl h⟩
      | ok r => exact absurd h List.not_mem_nil
  | commit => exact absurd h List.not_mem_nil
  | rollback => exact absurd h List.not_mem_nil
  | _ => exact ⟨rfl, Or.inl h⟩

/-- A transaction commits nothing before its end. -/
theorem commits_of_inside {n : Notes} {β : Type} {a : Act β} {b : β} (hin : n.inside = true)
    (hb : a.committed b = false) : n.commits a b = [] := by
  cases a with
  | query s =>
      cases b with
      | error e => rfl
      | ok r =>
          show (if n.inside then [] else _) = []
          rw [if_pos hin]
  | commit =>
      cases b with
      | error e => rfl
      | ok r => cases hb
  | _ => rfl

/-- **What a step can do to credentials**: nothing, end a transaction, or update
a row for a reason. -/
inductive Deed (S : Settings) (n : Notes) (op : Op) : ∀ {β : Type}, Act β → β → Prop where
  | none {β : Type} {a : Act β} {b : β} : a.updated b = none → n.commits a b = [] →
      a.committed b = false → Deed S n op a b
  | commit : Staged S n op → Deed S n op .commit (.ok ())
  | update {id cond set row} : Update S n op id cond set →
      Deed S n op (.query (.updateUser id cond set)) (.ok (some row))

/-- **What an allowed step does to credentials**, by the notes of its call. -/
theorem deed {n : Notes} {β : Type} {a : Act β} (ha : n.allow S op a) (b : β) :
    Deed S n op a b := by
  cases a with
  | query s =>
      cases b with
      | error x => exact .none rfl rfl rfl
      | ok r =>
          cases s with
          | updateUser id cond set =>
              cases r with
              | none =>
                  refine .none rfl ?_ rfl
                  show (if n.inside then [] else []) = []
                  rw [ite_self]
              | some row => exact .update ha
          | _ =>
              refine .none rfl ?_ rfl
              show (if n.inside then [] else []) = []
              rw [ite_self]
  | commit =>
      cases b with
      | error x => exact .none rfl rfl rfl
      | ok r => exact .commit ha
  | begin =>
      cases b with
      | error x => exact .none rfl rfl rfl
      | ok r => exact .none rfl rfl rfl
  | _ => exact .none rfl rfl rfl

/-- An UPDATE of a call is made for a reason. -/
theorem update_of_updated {n : Notes} {β : Type} {a : Act β} {b : β} (ha : n.allow S op a)
    {id : UserId} {set : UserPatch} (hu : a.updated b = some (id, set)) :
    ∃ cond, Update S n op id cond set := by
  cases deed ha b with
  | none hnone _ _ =>
      rw [hnone] at hu
      cases hu
  | commit _ =>
      have hu : none = some (id, set) := hu
      cases hu
  | update hwhy =>
      obtain ⟨rfl, rfl⟩ := Prod.mk.inj (Option.some.inj hu)
      exact ⟨_, hwhy⟩

/-- What an UPDATE commits. -/
theorem commits_update (n : Notes) (id : UserId) (cond : User → Bool) (set : UserPatch)
    (row : User) : n.commits (.query (.updateUser id cond set)) (.ok (some row)) =
      if n.inside then [] else [(id, set)] := rfl

/-- A step that shows a row commits no patch. -/
theorem commits_of_row {n : Notes} {β : Type} {a : Act β} {b : β} {user : User}
    (h : a.row b = some user) : n.commits a b = [] := by
  cases a with
  | query s =>
      cases b with
      | error x => rfl
      | ok r =>
          cases s with
          | updateUser id cond set => cases h
          | _ => simp [Notes.commits, Stmt.patches]
  | _ => cases h

/-- **A row that is read shows the committed credentials.** -/
theorem Booked.read {β : Type} {a : Act β} {b : β} (h : Booked w gs) (ha : (gs p).allow S op a)
    (hx : exec S p a e w = some (b, w')) {user : User} (hrow : a.row b = some user) :
    credentials user = w.db.creds user.id := by
  -- a row of the view, where nothing but plain patches is staged
  have hview : (gs p).IsPlain → ∀ id, (w.view p).users.get id = some user →
      credentials user = w.db.creds user.id := by
    intro hplain id hget
    have hid : user.id = id := Table.get_key hget
    rw [← Db.creds_of_get hget, h.view_creds p, enact_plain hplain.1, hid]
  cases a with
  | query s =>
      cases b with
      | error x => cases hrow
      | ok r =>
          rcases exec_query hx with ⟨hb, -⟩ | ⟨hb, -⟩
          · cases hb
          · cases s with
            | selectUser id =>
                have hr : r = (w.view p).users.get id := Except.ok.inj hb
                exact hview ha id (hr.symm.trans hrow)
            | findUser cond =>
                have hr : r = pickRow e.pick ((w.view p).users.rows.filter cond) := Except.ok.inj hb
                have hpick : pickRow e.pick ((w.view p).users.rows.filter cond) = some user :=
                  hr.symm.trans hrow
                have hmem : user ∈ (w.view p).users.rows :=
                  List.mem_of_mem_filter (List.mem_of_getElem? hpick)
                exact hview ha user.id (Table.mem_rows.mp hmem)
            | selectUserForUpdate id =>
                have hrow : r = some user := hrow
                simp only [plan] at hb
                split at hb
                next =>
                  have hr : r = none := Except.ok.inj hb
                  rw [hr] at hrow
                  cases hrow
                next user' hget =>
                  have hr : r = some user' := Except.ok.inj hb
                  obtain rfl : user' = user := Option.some.inj (hr.symm.trans hrow)
                  exact hview ha id hget
            | insertUser v =>
                obtain rfl : r = user := Option.some.inj hrow
                simp only [plan] at hb
                split at hb
                next => cases hb
                next hfree =>
                  split at hb
                  next => cases hb
                  next =>
                    have hr : r = v.row e.uuid w.clock := Except.ok.inj hb
                    -- the view has every row of the tables
                    have hnot : ¬ w.db.has e.uuid := by
                      intro hhas
                      exact hfree (has_foldl hhas _)
                    rw [hr, credentials_row]
                    exact (Db.creds_of_not_has hnot).symm
            | _ => cases hrow
  | _ => cases hrow

/-- A row that is read shows the credentials of its user after the step, too. -/
theorem Booked.read_after {β : Type} {a : Act β} {b : β} (h : Booked w gs)
    (hx : exec S p a e w = some (b, w')) {user : User} (hrow : a.row b = some user) (u : UserId) :
    w'.db.creds u = w.db.creds u := by
  rw [h.creds_step hx, commits_of_row hrow, enact_nil]

/-- **An UPDATE that finds its row** finds one that meets its condition. -/
theorem Booked.update {id : UserId} {cond : User → Bool} {set : UserPatch} {row : User}
    (h : Booked w gs) (hx : exec S p (.query (.updateUser id cond set)) e w = some (.ok (some row), w'))
    (hstaged : (gs p).staged = []) :
    ∃ user, user.id = id ∧ cond user = true ∧ credentials user = w.db.creds id := by
  rcases exec_query hx with ⟨hb, -⟩ | ⟨hb, -⟩
  · cases hb
  · rcases plan_update w.clock e (w.view p) id cond set with ⟨user, hget, hcond, -⟩ | ⟨-, hno⟩
    · refine ⟨user, Table.get_key hget, hcond, ?_⟩
      rw [← Db.creds_of_get hget, h.view_creds p, hstaged, enact_nil]
    · exact absurd hb.symm (hno row)

end Reads

/-! ## §6. What a run remembers of a call. -/

/-- The rows of `users` a call was shown, the last one first and each with a
mark of the moment, and the random texts it drew. -/
structure Journal (τ : Type) where
  rows : Pid → List (User × τ)
  drawn : Pid → List String

namespace Journal

variable {τ : Type}

/-- Nothing has happened. -/
def blank : Journal τ := ⟨fun _ => [], fun _ => []⟩

/-- A new call. -/
def opened (j : Journal τ) (p : Pid) : Journal τ where
  rows := Function.update j.rows p []
  drawn := Function.update j.drawn p []

/-- A step of call `p`. -/
def step (j : Journal τ) (mark : UserId → τ) (p : Pid) {β : Type} (a : Act β) (b : β) :
    Journal τ where
  rows := Function.update j.rows p (((a.row b).map fun u => (u, mark u.id)).toList ++ j.rows p)
  drawn := Function.update j.drawn p (j.drawn p ++ a.drew b)

/-- The row a call was shown last. -/
def last (j : Journal τ) (p : Pid) : Option User := (j.rows p).head?.map Prod.fst

/-- The journal has what the notes of every call have. -/
def Covers (j : Journal τ) (gs : Pid → Notes) : Prop :=
  ∀ p, (gs p).op.isSome = true → (gs p).drawn = j.drawn p ∧
    ∀ user, (gs p).read = some user → j.last p = some user

theorem Covers.idle (j : Journal τ) : j.Covers fun _ => .idle := nofun

variable {j : Journal τ} {gs : Pid → Notes} {p : Pid}

/-- A new call begins a new page. -/
theorem Covers.opened (h : j.Covers gs) (op : Op) :
    (j.opened p).Covers (Function.update gs p (.fresh op)) := by
  intro q hq
  by_cases hqp : q = p
  · subst hqp
    simp [Journal.opened, Notes.fresh]
  · rw [Function.update_of_ne hqp] at hq ⊢
    simpa [Journal.opened, Journal.last, hqp] using h q hq

/-- **The journal follows every step.** -/
theorem Covers.step (h : j.Covers gs) (mark : UserId → τ) {β : Type} (a : Act β) (b : β) :
    (j.step mark p a b).Covers (Function.update gs p ((gs p).next a b)) := by
  intro q hq
  by_cases hqp : q = p
  · subst hqp
    rw [Function.update_self] at hq ⊢
    rw [(gs q).next_op] at hq
    obtain ⟨hdrawn, hread⟩ := h q hq
    refine ⟨?_, fun user huser => ?_⟩
    · show _ = Function.update j.drawn q _ q
      rw [(gs q).next_drawn, hdrawn, Function.update_self]
    · show ((Function.update j.rows q _ q).head?.map Prod.fst) = some user
      rw [Function.update_self]
      rcases (gs q).next_read a b huser with hrow | ⟨hrow, hold⟩
      · rw [hrow]
        rfl
      · rw [hrow]
        exact hread user hold
  · rw [Function.update_of_ne hqp] at hq ⊢
    simpa [Journal.step, Journal.last, hqp] using h q hq

/-- A restart leaves the pages of the calls that are over. -/
theorem Covers.settled (h : j.Covers gs) (alive : Pid → Bool) :
    j.Covers fun p => if alive p then (gs p).settle else .idle := by
  intro q hq
  cases halive : alive q with
  | true =>
      simp only [halive, if_true] at hq ⊢
      exact h q hq
  | false =>
      simp only [halive] at hq
      cases hq

end Journal

/-! ## §7. Runs. -/

/-- What a result says does not depend on a transaction. -/
theorem told_settle {S : Settings} {n : Notes} {op : Op} {r : Reply} (h : Told S n op r) :
    Told S n.settle op r := by
  have hsame : Told S n.settle op r = Told S n op r := by
    cases op <;> cases r <;> rfl
  rw [hsame]
  exact h

/-- The notes of a call name its operation. -/
theorem noted_op {S : Settings} {c : Conf} {gs : Pid → Notes}
    (h : System.Tracks (scribe S) .idle (Closed S) Broken c gs) {p : Pid} {op : Op}
    (hp : (c.calls p).map Task.op = some op) : (gs p).op = some op := by
  obtain ⟨⟨op', rest⟩, hcall, rfl⟩ := Option.map_eq_some_iff.mp hp
  have hwp := h.wp hcall
  cases rest with
  | ret r => exact hwp.2
  | fail x => exact hwp
  | act a k => exact hwp.1.2

/-- **The invariant rule with the notes of every call.** -/
theorem noted_run {O : Type} {S : Settings} {V : Watch Act World Env Op O}
    (Inv : World → O → (Pid → Notes) → Prop)
    (invoke : ∀ {w o gs p op}, Booked w gs → Inv w o gs → gs p = .idle →
      V.accepts o w p op = true → Inv w (V.onInvoke o w p op) (Function.update gs p (.fresh op)))
    (step : ∀ {w o gs p op} {β : Type} {a : Act β} {e b w'}, Booked w gs → Inv w o gs →
      (gs p).op = some op → (gs p).allow S op a → a.powers ⊆ op.powers →
      V.guard o w p op a e = true → exec S p a e w = some (b, w') →
      Inv w' (V.onStep o w p op a b w') (Function.update gs p ((gs p).next a b)))
    (ambient : ∀ {w o gs e w'}, Booked w gs → Inv w o gs → ambient e w = some w' →
      Inv w' (V.onAmbient o w w') gs)
    (reboot : ∀ {w o gs e w'} (alive : Pid → Bool), Booked w gs → Inv w o gs →
      reboot e w = some w' →
      Inv w' (V.onReboot o w w') fun p => if alive p then (gs p).settle else .idle)
    {d : Db} {clock : Timestamp} {o₀ o : O} {c : Conf}
    (h₀ : Inv (World.boot d clock) o₀ fun _ => .idle)
    (h : (system S).Reach V (Config.init (World.boot d clock)) o₀ c o) :
    ∃ gs, Booked c.world gs ∧ Inv c.world o gs ∧
      System.Tracks (scribe S) .idle (Closed S) Broken c gs := by
  have hrun := System.Reach.sound_settled (S := system S) (V := V) (M := scribe S) (Q := Closed S)
    (E := Broken) Notes.fresh Notes.settle
    (fun w o gs => Booked w gs ∧ Inv w o gs) ?_ ?_ (fun {_ _ _ op} _ => body_scribe S op)
    (fun {w o gs p op} hI hidle ha => ⟨hI.1.invoke hidle op, invoke hI.1 hI.2 hidle ha⟩)
    (fun {w o gs p op β a e b w'} hI ha hg hx => ?_)
    (fun {w o gs e w'} hI hx => ⟨hI.1.ambient hx, ambient hI.1 hI.2 hx⟩)
    (fun {w o gs e w'} alive hI hx _ _ =>
      ⟨hI.1.reboot (e := e) hx alive, reboot (e := e) alive hI.1 hI.2 hx⟩)
    ⟨Booked.boot d clock, h₀⟩ h
  · obtain ⟨gs, ⟨hB, hI⟩, hT⟩ := hrun
    exact ⟨gs, hB, hI, hT⟩
  · rintro op r n ⟨htold, hop⟩
    refine ⟨?_, hop⟩
    exact told_settle htold
  · exact fun op e n hop => hop
  · obtain ⟨⟨hallow, hpowers⟩, hop⟩ := ha
    exact ⟨_, ⟨rfl, exec_possible hx⟩, hI.1.step hx,
      step hI.1 hI.2 hop hallow hpowers hg hx⟩

end MinePanel.Accounts
