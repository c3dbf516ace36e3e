/-
  MinePanel.Auth.Linking
  ──────────────────────
  **NO PROVIDER IDENTITY IS LINKED IN SILENCE.**

  Sign-in with Google looks for the subject, then for the e-mail, inserts where
  both are free, and looks again where the INSERT met a unique column; linking
  and registration go on meanwhile.  A link is written once, on a row that has
  none and that the transaction keeps locked until it commits (`Grounded`), so
  what a sign-in was shown stays true.

    * `History` — every change of a Google identity, with its call, and what was
      committed while a call went on;
    * `Moves` — what one step does to the identities;
    * `Kept` — the invariant;
    * `no_silent_linking` — **sessions, links, owners and the request to confirm**.
-/
import MinePanel.Accounts.Unique
import MinePanel.Auth.Challenges

namespace MinePanel.Accounts

open MinePanel.Db MinePanel.Lib Prog

namespace Linking

/-! ## §1. The history. -/

/-- The Google identity of an account, where the account exists. -/
def googleIdOf (d : Db) (u : UserId) : Option (Option String) :=
  (d.users.get u).map User.googleId

/-- A call, and the subject Google has vouched for. -/
structure Caller where
  pid : Pid
  op : Op
  subject : Option String

/-- A Google identity that is no longer what it was. -/
structure Link where
  user : UserId
  /-- Nothing where the account is new. -/
  before : Option (Option String)
  after : Option String
  /-- Nobody where no call made the step. -/
  caller : Option Caller

/-- The identities that differ between two states. -/
def newLinks (d d' : Db) (caller : Option Caller) : List Link :=
  (d'.users.rows.filter fun u => decide (googleIdOf d u.id ≠ some u.googleId)).map fun u =>
    ⟨u.id, googleIdOf d u.id, u.googleId, caller⟩

/-- The call writes a session. -/
def issuing : ∀ {β : Type}, Act β → β → Bool
  | _, .query (.insertToken _), b =>
      match b with
      | .ok _ => true
      | .error _ => false
  | _, _, _ => false

/-- The history of a run. -/
structure History where
  visits : Pid → Visit
  links : List Link
  /-- The call has written a session. -/
  issued : Pid → Bool
  /-- What was committed since the call began. -/
  states : Pid → List Db
  /-- What was committed from its beginning to its last step. -/
  past : Pid → List Db

namespace History

/-- Nothing has happened. -/
def blank : History := ⟨fun _ => Visit.idle, [], fun _ => false, fun _ => [], fun _ => []⟩

/-- A new call. -/
def opened (o : History) (w : World) (p : Pid) (op : Op) : History :=
  { o with
    visits := Function.update o.visits p (Visit.fresh op)
    issued := Function.update o.issued p false
    states := Function.update o.states p [w.db]
    past := Function.update o.past p [] }

/-- A step of call `p`. -/
def step (o : History) (w : World) (p : Pid) (op : Op) {β : Type} (a : Act β) (b : β)
    (w' : World) : History where
  visits := Function.update o.visits p ((o.visits p).next a b)
  links := newLinks w.db w'.db (some ⟨p, op, (o.visits p).subject⟩) ++ o.links
  issued := if issuing a b then Function.update o.issued p true else o.issued
  states := fun q => w'.db :: o.states q
  past := Function.update o.past p (w'.db :: o.states p)

/-- A step that no call makes. -/
def moved (o : History) (w w' : World) : History :=
  { o with
    links := newLinks w.db w'.db none ++ o.links
    states := fun q => w'.db :: o.states q }

/-- The process has died. -/
def rebooted (o : History) (w w' : World) : History :=
  { o.moved w w' with visits := fun p => (o.visits p).settle }

end History

/-- Every interleaving. -/
def watch : Watch Act World Env Op History where
  onInvoke := fun o w p op => o.opened w p op
  onStep := fun o w p op _ a b w' => o.step w p op a b w'
  onAmbient := fun o w w' => o.moved w w'
  onReboot := fun o w w' => o.rebooted w w'

/-- **How an identity may change**: the account had none, and a call of its own
links the subject it presents; or the account is new, without an identity or
with the subject that signed in. -/
def Link.Rightful (S : Settings) (l : Link) : Prop :=
  ∃ caller, l.caller = some caller ∧
    ((l.before = some none ∧ (∃ credential, caller.op = .googleLink l.user credential) ∧
        ∃ sub, caller.subject = some sub ∧ l.after = some (S.trim sub)) ∨
      (l.before = none ∧ (l.after = none ∨ (caller.op.isGoogleLogin = true ∧
        ∃ sub, caller.subject = some sub ∧ l.after = some (S.trim sub)))))

/-! ## §2. What a write does to the identities. -/

section Writes

variable {S : Settings} {op : Op} {v : Visit} {d₀ d : Db} {x : Write}

/-- A write of `users` on the grounds of its call: a link meets a row that has
none in `d₀`. -/
def Grounded (S : Settings) (op : Op) (v : Visit) (d₀ : Db) : Write → Prop
  | .insertUser row => row.googleId = none ∨ (op.isGoogleLogin = true ∧
      ∃ sub, v.subject = some sub ∧ row.googleId = some (S.trim sub))
  | .updateUser id set _ => set.googleId = none ∨
      ((∃ credential, op = .googleLink id credential) ∧ googleIdOf d₀ id = some none ∧
        ∃ sub, v.subject = some sub ∧ set.googleId = some (some (S.trim sub)))
  | _ => True

/-- **What a step does to the identity of an account.** -/
def Moves (S : Settings) (op : Op) (v : Visit) (d₀ d : Db) : Prop :=
  ∀ u, googleIdOf d u = googleIdOf d₀ u ∨
    (googleIdOf d₀ u = some none ∧ (∃ credential, op = .googleLink u credential) ∧
      ∃ sub, v.subject = some sub ∧ googleIdOf d u = some (some (S.trim sub))) ∨
    (googleIdOf d₀ u = none ∧ (googleIdOf d u = some none ∨ (op.isGoogleLogin = true ∧
      ∃ sub, v.subject = some sub ∧ googleIdOf d u = some (some (S.trim sub)))))

theorem Moves.refl (d : Db) : Moves S op v d d := fun _ => .inl rfl

/-- An account that is there was there, or is new. -/
theorem Moves.none (h : Moves S op v d₀ d) {u : UserId} (hu : googleIdOf d u = none) :
    googleIdOf d₀ u = none := by
  rcases h u with heq | ⟨-, -, sub, -, hsome⟩ | ⟨hnone, -⟩
  · rw [← heq]
    exact hu
  · rw [hu] at hsome
    cases hsome
  · exact hnone

theorem googleIdOf_insert (d : Db) (row : User) (u : UserId) :
    googleIdOf (d.apply (.insertUser row)) u = googleIdOf d u ∨
      (u = row.id ∧ googleIdOf d u = none ∧
        googleIdOf (d.apply (.insertUser row)) u = some row.googleId) := by
  unfold googleIdOf
  cases hget : d.users.get u with
  | some r => exact .inl (by rw [get_insert_of_some hget])
  | none =>
      by_cases hu : u = row.id
      · subst hu
        refine .inr ⟨rfl, rfl, ?_⟩
        rw [get_insert_self hget]
        rfl
      · refine .inl ?_
        show (((d.users.insert row).getD d.users).get u).map User.googleId = _
        cases hins : d.users.insert row with
        | none => rw [Option.getD_none, hget]
        | some t => rw [Option.getD_some, Table.get_insert hins, if_neg fun h => hu h.symm, hget]

theorem googleIdOf_update (d : Db) (id : UserId) (set : UserPatch) (now : Timestamp)
    (u : UserId) :
    googleIdOf (d.apply (.updateUser id set now)) u =
      if u = id then (googleIdOf d u).map fun g => set.googleId.getD g else googleIdOf d u := by
  unfold googleIdOf
  rw [get_update]
  cases hget : d.users.get u with
  | none => simp
  | some r =>
      have hid : r.id = u := Table.get_key hget
      by_cases hu : u = id
      · have hpatch : patchUser id set now r = set.apply now r := if_pos (hid.trans hu)
        rw [if_pos hu, Option.map_some, hpatch]
        rfl
      · have hpatch : patchUser id set now r = r := if_neg fun h => hu (hid.symm.trans h)
        rw [if_neg hu, Option.map_some, hpatch]

theorem Moves.apply (h : Moves S op v d₀ d) (hx : Grounded S op v d₀ x) :
    Moves S op v d₀ (d.apply x) := by
  intro u
  cases x with
  | insertUser row =>
      rcases googleIdOf_insert d row u with heq | ⟨rfl, hnone, hsome⟩
      · rw [heq]
        exact h u
      · refine .inr (.inr ⟨h.none hnone, ?_⟩)
        rcases hx with hx | ⟨hop, sub, hsub, hx⟩
        · exact .inl (by rw [hsome, hx])
        · exact .inr ⟨hop, sub, hsub, by rw [hsome, hx]⟩
  | updateUser id set now =>
      rw [googleIdOf_update]
      split
      next heq =>
        subst heq
        rcases hx with hx | ⟨hop, hnone, sub, hsub, hx⟩
        · rw [hx]
          simpa using h u
        · -- the account is there, with no identity or with this one
          refine .inr (.inl ⟨hnone, hop, sub, hsub, ?_⟩)
          rw [hx]
          cases hd : googleIdOf d u with
          | none =>
              rw [h.none hd] at hnone
              cases hnone
          | some g => rfl
      next => exact h u
  | _ => exact h u

theorem Moves.foldl {ws : List Write} (h : ∀ x ∈ ws, Grounded S op v d₀ x) :
    Moves S op v d₀ (ws.foldl Db.apply d₀) := by
  have hall : ∀ d, Moves S op v d₀ d → Moves S op v d₀ (ws.foldl Db.apply d) := by
    induction ws with
    | nil => exact fun d hd => hd
    | cons x ws ih =>
        intro d hd
        exact ih (fun y hy => h y (List.mem_cons_of_mem _ hy)) _
          (hd.apply (h x List.mem_cons_self))
  exact hall d₀ (Moves.refl d₀)

/-- A linked account stays linked to the same subject. -/
def Persists (d d' : Db) : Prop :=
  ∀ u g, googleIdOf d u = some (some g) → googleIdOf d' u = some (some g)

theorem Moves.persists (h : Moves S op v d₀ d) : Persists d₀ d := by
  intro u g hu
  rcases h u with heq | ⟨hnone, -⟩ | ⟨hnone, -⟩
  · rw [heq]
    exact hu
  · rw [hu] at hnone
    cases hnone
  · rw [hu] at hnone
    cases hnone

theorem mem_newLinks {d d' : Db} {caller : Option Caller} {l : Link}
    (h : l ∈ newLinks d d' caller) :
    l.before = googleIdOf d l.user ∧ googleIdOf d' l.user = some l.after ∧
      googleIdOf d' l.user ≠ googleIdOf d l.user ∧ l.caller = caller := by
  obtain ⟨u, hu, rfl⟩ := List.mem_map.mp h
  obtain ⟨hrow, hne⟩ := List.mem_filter.mp hu
  have hafter : googleIdOf d' u.id = some u.googleId := by
    unfold googleIdOf
    rw [Table.mem_rows.mp hrow]
    rfl
  refine ⟨rfl, hafter, ?_, rfl⟩
  rw [hafter]
  exact fun heq => (of_decide_eq_true hne) heq.symm

/-- The links of a step are rightful. -/
theorem Moves.rightful (h : Moves S op v d₀ d) {p : Pid} {l : Link}
    (hl : l ∈ newLinks d₀ d (some ⟨p, op, v.subject⟩)) : l.Rightful S := by
  obtain ⟨hbefore, hafter, hne, hcaller⟩ := mem_newLinks hl
  refine ⟨_, hcaller, ?_⟩
  rcases h l.user with heq | ⟨hnone, hop, sub, hsub, hsome⟩ | ⟨hnone, hcase⟩
  · exact absurd heq hne
  · rw [hafter, Option.some.injEq] at hsome
    exact .inl ⟨hbefore.trans hnone, hop, sub, hsub, hsome⟩
  · refine .inr ⟨hbefore.trans hnone, ?_⟩
    rcases hcase with hsome | ⟨hop, sub, hsub, hsome⟩
    · rw [hafter, Option.some.injEq] at hsome
      exact .inl hsome
    · rw [hafter, Option.some.injEq] at hsome
      exact .inr ⟨hop, sub, hsub, hsome⟩

end Writes

/-! ## §3. Steps. -/

section Visits

variable {S : Settings} {op : Op} {v : Visit} {β : Type} {a : Act β} {b : β}

/-- A call that has been shown the token is not shown another. -/
theorem payload_next (hallow : v.Allows S op a) (hgoogle : op.isGoogle = true)
    (hv : v.payload ≠ none) : (v.next a b).payload = v.payload := by
  cases a with
  | verifyIdToken clientId credential => exact absurd (hallow.grounds hgoogle).1 hv
  | query s =>
      cases b with
      | error x => rfl
      | ok r =>
          cases s with
          | findUser cond =>
              show (if v.inside then _ else _ : Visit).payload = v.payload
              split <;> rfl
          | insertUser x =>
              show (if v.inside then _ else _ : Visit).payload = v.payload
              split <;> rfl
          | _ => rfl
  | begin => cases b <;> rfl
  | _ => rfl

theorem subject_next (hallow : v.Allows S op a) (hgoogle : op.isGoogle = true) {sub : String}
    (hsub : v.subject = some sub) : (v.next a b).subject = some sub := by
  have hv : v.payload ≠ none := by
    intro hnone
    rw [Visit.subject, hnone] at hsub
    cases hsub
  unfold Visit.subject
  rw [payload_next hallow hgoogle hv]
  exact hsub

/-- The grounds of a pending write stay. -/
theorem Grounded.next {d : Db} {x : Write} (hallow : v.Allows S op a)
    (h : Grounded S op v d x) : Grounded S op (v.next a b) d x := by
  cases x with
  | insertUser row =>
      rcases h with h | ⟨hop, sub, hsub, h⟩
      · exact .inl h
      · exact .inr ⟨hop, sub, subject_next hallow (isGoogle_of_isGoogleLogin hop) hsub, h⟩
  | updateUser id set now =>
      rcases h with h | ⟨⟨credential, rfl⟩, hnone, sub, hsub, h⟩
      · exact .inl h
      · exact .inr ⟨⟨credential, rfl⟩, hnone, sub, subject_next hallow rfl hsub, h⟩
  | _ => trivial

theorem grounded_other {d : Db} {x : Write} (h : x.updates = none)
    (ha : Power.account ∉ x.powers) : Grounded S op v d x := by
  cases x with
  | insertUser row => exact absurd List.mem_cons_self ha
  | updateUser id set now => cases h
  | _ => trivial

/-- What a statement writes stands on the grounds of its call. -/
theorem grounded_plan {α : Type} {s : Stmt α} (hallow : v.Allows S op (.query s))
    (now : Timestamp) (e : Env) {d₀ d : Db}
    (hd : v.inside = true → v.wrote = false → d = d₀) :
    ∀ x ∈ (plan now e d s).writes, Grounded S op v d₀ x := by
  intro x hx
  have hother : s.updates = none → Power.account ∉ s.powers → Grounded S op v d₀ x := by
    intro hupdates haccount
    refine grounded_other ((plan_updates now e d s x hx).trans hupdates) ?_
    rw [plan_powers now e d s x hx]
    exact haccount
  cases s with
  | insertUser values =>
      have hrow : x = .insertUser (values.row e.uuid now) := by
        simp only [plan] at hx
        split at hx
        next => cases hx
        next =>
          split at hx
          next => cases hx
          next => exact List.mem_singleton.mp hx
      subst hrow
      rcases hallow.grounds with hnone | ⟨hop, -, sub, hsub, hsome⟩
      · exact .inl hnone
      · exact .inr ⟨hop, sub, hsub, hsome⟩
  | updateUser id cond set =>
      rcases plan_update now e d id cond set with ⟨user, hget, hcond, -, hwrites⟩ | ⟨hwrites, -⟩
      · rw [hwrites] at hx
        rw [List.mem_singleton.mp hx]
        rcases hallow.grounds with hnone | ⟨hop, hinside, hclean, hfree, sub, hsub, hsome⟩
        · exact .inl hnone
        · refine .inr ⟨hop, ?_, sub, hsub, hsome⟩
          rw [← hd hinside hclean]
          unfold googleIdOf
          rw [hget, Option.map_some, hfree user hcond]
      · rw [hwrites] at hx
        cases hx
  | _ => exact hother rfl (by simp [Stmt.powers])

end Visits

section Steps

variable {S : Settings} {p : Pid} {op : Op} {β : Type} {a : Act β} {e : Env} {b : β}
  {w w' : World} {gs : Pid → Visit}

/-- What the call sees is what is committed, until it writes. -/
theorem view_of_clean (hA : Attended w gs) (hinside : (gs p).inside = true)
    (hclean : (gs p).wrote = false) : w.view p = w.db := by
  show w.tables.view Db.apply p = _
  rw [Store.view_of_some (hA.clean p hinside hclean)]
  rfl

/-- **What a step commits**, from grounded writes. -/
theorem moves_step (hA : Attended w gs) (hallow : (gs p).Allows S op a)
    (hpending : ∀ ws, w.tables.pending p = some ws → ∀ x ∈ ws, Grounded S op (gs p) w.db x)
    (hx : exec S p a e w = some (b, w')) : Moves S op (gs p) w.db w'.db := by
  cases a with
  | query s =>
      rcases exec_query hx with ⟨-, rfl⟩ | ⟨-, -, -, rfl⟩
      · exact Moves.refl _
      · show Moves S op (gs p) w.db (w.tables.put Db.apply p _ _).committed
        cases hp : w.tables.pending p with
        | some ws =>
            rw [Store.put_committed_of_some hp]
            exact Moves.refl _
        | none =>
            rw [Store.put_of_none hp]
            exact Moves.foldl (grounded_plan hallow w.clock e fun hi hc => view_of_clean hA hi hc)
  | commit =>
      rcases exec_commit hx with ⟨-, rfl⟩ | ⟨-, rfl⟩
      · exact Moves.refl _
      · show Moves S op (gs p) w.db (w.tables.commit Db.apply p).committed
        rw [Store.commit_committed]
        cases hp : w.tables.pending p with
        | none =>
            rw [Store.view_of_none hp]
            exact Moves.refl _
        | some ws =>
            rw [Store.view_of_some hp]
            exact Moves.foldl (hpending ws hp)
  | begin =>
      rcases exec_begin hx with ⟨-, rfl⟩ | ⟨-, -, rfl⟩
      · exact Moves.refl _
      · exact Moves.refl _
  | rollback =>
      rw [exec_rollback hx]
      exact Moves.refl _
  | _ =>
      have hdb : w'.db = w.db := congrArg Store.committed (exec_silent rfl hx)
      rw [hdb]
      exact Moves.refl _

/-- A row lock protects the identity of its account. -/
theorem googleId_protects (u : UserId) :
    Store.Protects Db.apply Write.touches (.user u)
      (fun d d' => googleIdOf d' u = googleIdOf d u) where
  refl := fun _ => rfl
  trans := fun h h' => h'.trans h
  frame := fun d x hx => by
    cases x with
    | insertUser row =>
        rcases googleIdOf_insert d row u with heq | ⟨rfl, -⟩
        · exact heq
        · exact absurd rfl hx
    | updateUser id set now =>
        rw [googleIdOf_update, if_neg]
        rintro rfl
        exact hx rfl
    | _ => rfl

end Steps

/-! ## §4. The invariant. -/

/-- What a lookup in `d` can have shown. -/
def Looked (d : Db) (l : (User → Bool) × Option User) : Prop :=
  (∀ u, l.2 = some u → u ∈ d.users.rows ∧ l.1 u = true) ∧
    (l.2 = none → ∀ u ∈ d.users.rows, l.1 u = false)

theorem looked_plan (now : Timestamp) (e : Env) (d : Db) (cond : User → Bool) {r : Option User}
    (h : (plan now e d (.findUser cond)).answer = .ok r) : Looked d (cond, r) := by
  have hpick : pickRow e.pick (d.users.rows.filter cond) = r := Except.ok.inj h
  refine ⟨fun u hu => ?_, fun hnone u hu => ?_⟩
  · exact List.mem_filter.mp (pickRow_mem (hpick.trans hu))
  · rw [show r = none from hnone] at hpick
    by_contra htrue
    have hmem : u ∈ d.users.rows.filter cond :=
      List.mem_filter.mpr ⟨hu, by simpa using htrue⟩
    have hlength := List.getElem?_eq_none_iff.mp hpick
    have hpos := List.length_pos_of_mem hmem
    exact absurd (Nat.mod_lt e.pick hpos) (by omega)

theorem looks_subset {v : Visit} {β : Type} {a : Act β} {b : β} :
    v.looks ⊆ (v.next a b).looks := by
  cases a with
  | query s =>
      cases b with
      | error x => exact List.Subset.refl _
      | ok r =>
          cases s with
          | findUser cond =>
              show v.looks ⊆ (if v.inside then _ else _ : Visit).looks
              split
              next => exact List.Subset.refl _
              next => exact List.subset_cons_self _ _
          | insertUser x =>
              show v.looks ⊆ (if v.inside then _ else _ : Visit).looks
              split <;> exact List.Subset.refl _
          | _ => exact List.Subset.refl _
  | begin => cases b <;> exact List.Subset.refl _
  | _ => exact List.Subset.refl _

section Shown

variable {S : Settings} {p : Pid} {op : Op} {β : Type} {a : Act β} {e : Env} {b : β}
  {w w' : World} {gs : Pid → Visit}

/-- A lookup outside a transaction sees what is committed. -/
theorem looks_step (hA : Attended w gs) (hx : exec S p a e w = some (b, w'))
    {l : (User → Bool) × Option User} (hl : l ∈ ((gs p).next a b).looks) :
    l ∈ (gs p).looks ∨ Looked w.db l := by
  cases a with
  | query s =>
      cases b with
      | error x => exact .inl hl
      | ok r =>
          cases s with
          | findUser cond =>
              change l ∈ (if (gs p).inside then _ else _ : Visit).looks at hl
              split at hl
              next => exact .inl hl
              next hout =>
                rcases List.mem_cons.mp hl with rfl | hold
                · refine .inr ?_
                  rcases exec_query hx with ⟨hb, -⟩ | ⟨hb, -⟩
                  · cases hb
                  · have hview : w.view p = w.db :=
                      Store.view_of_none (hA.outside (by simpa using hout))
                    rw [hview] at hb
                    exact looked_plan w.clock e w.db cond hb.symm
                · exact .inl hold
          | insertUser x =>
              change l ∈ (if (gs p).inside then _ else _ : Visit).looks at hl
              split at hl <;> exact .inl hl
          | _ => exact .inl hl
  | begin => cases b <;> exact .inl hl
  | _ => exact .inl hl

/-- An account created outside a transaction is committed. -/
theorem created_step (hA : Attended w gs) (hx : exec S p a e w = some (b, w')) {user : User}
    (hu : ((gs p).next a b).created = some user) :
    (gs p).created = some user ∨ user ∈ w'.db.users.rows := by
  cases a with
  | query s =>
      cases b with
      | error x => exact .inl hu
      | ok r =>
          cases s with
          | findUser cond =>
              change (if (gs p).inside then _ else _ : Visit).created = some user at hu
              split at hu <;> exact .inl hu
          | insertUser values =>
              change (if (gs p).inside then _ else _ : Visit).created = some user at hu
              split at hu
              next => exact .inl hu
              next hout =>
                refine .inr ?_
                have huser : r = user := Option.some.inj hu
                subst huser
                have hp := hA.outside (p := p) (by simpa using hout)
                rcases exec_query hx with ⟨hb, -⟩ | ⟨hb, -, -, rfl⟩
                · cases hb
                · obtain ⟨-, hfree, hwrites⟩ := plan_insertUser_answer hb.symm
                  have hview : w.view p = w.db := Store.view_of_none hp
                  rw [hview] at hfree
                  show r ∈ (w.tables.put Db.apply p _ _).committed.users.rows
                  rw [Store.put_of_none hp, hwrites]
                  exact Table.mem_rows.mpr (get_insert_self hfree)
          | _ => exact .inl hu
  | begin => cases b <;> exact .inl hu
  | _ => exact .inl hu

/-- A sign-in that writes a session has escaped, and stays so. -/
theorem escaped_next {v : Visit} (hallow : v.Allows S op a) (hlogin : op.isGoogleLogin = true)
    (hold : ¬ issuing a b = true → v.passed = true ∧ v.Escaped S) :
    (v.next a b).passed = true ∧ (v.next a b).Escaped S := by
  have hgoogle := isGoogle_of_isGoogleLogin hlogin
  have hv : v.passed = true ∧ v.Escaped S := by
    by_cases hissuing : issuing a b = true
    · cases a with
      | query s =>
          cases s with
          | insertToken values =>
              have hpassed : v.passed = true := by
                by_contra hnot
                have hcheck := hallow.unpassed hgoogle (by simpa using hnot)
                cases hcheck
              rcases hallow.looking hlogin hpassed with hescaped | ⟨hlook, -⟩
              · exact ⟨hpassed, hescaped⟩
              · exact absurd hlook id
          | _ => cases hissuing
      | _ => cases hissuing
    · exact hold hissuing
  obtain ⟨hpassed, hescaped⟩ := hv
  refine ⟨by rw [OAuth.passed_next, hpassed, Bool.true_or], ?_⟩
  have hpayload : v.payload ≠ none → (v.next a b).payload = v.payload :=
    payload_next hallow hgoogle
  rcases hescaped with ⟨sub, user, hsub, hlook⟩ | ⟨email, hemail, hlook⟩
  · exact .inl ⟨sub, user, subject_next hallow hgoogle hsub, looks_subset hlook⟩
  · refine .inr ⟨email, ?_, looks_subset hlook⟩
    have hne : v.payload ≠ none := by
      intro hnone
      rw [Visit.email, hnone] at hemail
      cases hemail
    unfold Visit.email
    rw [hpayload hne]
    exact hemail

end Shown

/-- The history and the visits of a configuration. -/
structure Kept (S : Settings) (w : World) (o : History) (gs : Pid → Visit) : Prop where
  unique : KeysUnique w.tables
  sound : Store.Sound Write.touches w.tables
  same : ∀ p, (gs p).op ≠ none → o.visits p = gs p
  grounded : ∀ p op ws, (gs p).op = some op → w.tables.pending p = some ws →
    ∀ x ∈ ws, Grounded S op (gs p) w.db x
  rightful : ∀ l ∈ o.links, l.Rightful S
  here : ∀ p, (gs p).op ≠ none → w.db ∈ o.states p
  within : ∀ p, o.past p ⊆ o.states p
  persists : ∀ p, ∀ d ∈ o.states p, Persists d w.db
  looks : ∀ p, ∀ l ∈ (gs p).looks, ∃ d ∈ o.past p, Looked d l
  created : ∀ p user, (gs p).created = some user → ∃ d ∈ o.past p, user ∈ d.users.rows
  escaped : ∀ p op, (gs p).op = some op → op.isGoogleLogin = true → o.issued p = true →
    (gs p).passed = true ∧ (gs p).Escaped S

namespace Kept

variable {S : Settings} {w w' : World} {o : History} {gs : Pid → Visit} {p : Pid} {op : Op}
  {β : Type} {a : Act β} {e : Env} {b : β}

theorem boot (S : Settings) {d : Db} (hd : d.KeysUnique) (clock : Timestamp) :
    Kept S (World.boot d clock) History.blank fun _ => Visit.idle where
  unique := KeysUnique.of_quiet rfl hd
  sound := Store.Sound.quiet d
  same := fun _ hp => absurd rfl hp
  grounded := fun _ _ _ hop => (nomatch hop)
  rightful := fun _ hl => (nomatch hl)
  here := fun _ hp => absurd rfl hp
  within := fun _ _ hd => hd
  persists := fun _ _ hd => (nomatch hd)
  looks := fun _ _ hl => (nomatch hl)
  created := fun _ _ h => (nomatch h)
  escaped := fun _ _ hop => (nomatch hop)

theorem invoke (h : Kept S w o gs) (hA : Attended w gs) (hp : gs p = Visit.idle) (op : Op) :
    Kept S w (o.opened w p op) (Function.update gs p (Visit.fresh op)) := by
  have hnone : w.tables.pending p = none := hA.outside (by rw [hp]; rfl)
  refine ⟨h.unique, h.sound, fun q hq => ?_, fun q op' ws hop' hws => ?_, h.rightful,
    fun q hq => ?_, fun q => ?_, fun q d hd => ?_, fun q l hl => ?_, fun q user hu => ?_,
    fun q op' hop' hlogin hissued => ?_⟩
  all_goals by_cases hqp : q = p
  · subst hqp
    rw [Function.update_self]
    exact Function.update_self _ _ _
  · rw [Function.update_of_ne hqp] at hq ⊢
    exact (Function.update_of_ne hqp _ _).trans (h.same q hq)
  · subst hqp
    rw [hnone] at hws
    cases hws
  · rw [Function.update_of_ne hqp] at hop' ⊢
    exact h.grounded q op' ws hop' hws
  · subst hqp
    show w.db ∈ Function.update o.states q [w.db] q
    rw [Function.update_self]
    exact List.mem_singleton.mpr rfl
  · rw [Function.update_of_ne hqp] at hq
    show w.db ∈ Function.update o.states p [w.db] q
    rw [Function.update_of_ne hqp]
    exact h.here q hq
  · subst hqp
    show Function.update o.past q [] q ⊆ _
    rw [Function.update_self]
    exact List.nil_subset _
  · show Function.update o.past p [] q ⊆ Function.update o.states p [w.db] q
    rw [Function.update_of_ne hqp, Function.update_of_ne hqp]
    exact h.within q
  · subst hqp
    change d ∈ Function.update o.states q [w.db] q at hd
    rw [Function.update_self] at hd
    rw [List.mem_singleton.mp hd]
    exact fun _ _ hg => hg
  · change d ∈ Function.update o.states p [w.db] q at hd
    rw [Function.update_of_ne hqp] at hd
    exact h.persists q d hd
  · subst hqp
    rw [Function.update_self] at hl
    cases hl
  · rw [Function.update_of_ne hqp] at hl
    show ∃ d ∈ Function.update o.past p [] q, Looked d l
    rw [Function.update_of_ne hqp]
    exact h.looks q l hl
  · subst hqp
    rw [Function.update_self] at hu
    cases hu
  · rw [Function.update_of_ne hqp] at hu
    show ∃ d ∈ Function.update o.past p [] q, _
    rw [Function.update_of_ne hqp]
    exact h.created q user hu
  · subst hqp
    change Function.update o.issued q false q = true at hissued
    rw [Function.update_self] at hissued
    cases hissued
  · change Function.update o.issued p false q = true at hissued
    rw [Function.update_of_ne hqp] at hop' hissued ⊢
    exact h.escaped q op' hop' hlogin hissued

/-- The pending writes stay on their grounds. -/
theorem step_grounded (h : Kept S w o gs) (hA : Attended w gs) (hop : (gs p).op = some op)
    (hallow : (gs p).Allows S op a) (hx : exec S p a e w = some (b, w')) {q : Pid} {op' : Op}
    {ws : List Write} (hop' : (Function.update gs p ((gs p).next a b) q).op = some op')
    (hws : w'.tables.pending q = some ws) :
    ∀ x ∈ ws, Grounded S op' (Function.update gs p ((gs p).next a b) q) w'.db x := by
  by_cases hqp : q = p
  · subst hqp
    rw [Function.update_self] at hop' ⊢
    rw [(gs q).next_op, hop, Option.some.injEq] at hop'
    subst hop'
    -- inside its transaction a call commits nothing
    have hkeep : ∀ x, Grounded S op (gs q) w.db x → w'.db = w.db →
        Grounded S op ((gs q).next a b) w'.db x := by
      intro x hg hdb
      rw [hdb]
      exact hg.next hallow
    cases a with
    | query s =>
        rcases exec_query hx with ⟨-, rfl⟩ | ⟨-, -, -, rfl⟩
        · exact fun x hmem => hkeep x (h.grounded q op ws hop hws x hmem) rfl
        · change (w.tables.put Db.apply q _ _).pending q = some ws at hws
          cases hp : w.tables.pending q with
          | none =>
              rw [Store.put_pending_of_none hp] at hws
              cases hws
          | some ws₀ =>
              rw [Store.put_pending_of_some hp, Option.some.injEq] at hws
              subst hws
              intro x hmem
              refine hkeep x ?_ (Store.put_committed_of_some hp)
              rcases List.mem_append.mp hmem with hold | hnew
              · exact h.grounded q op ws₀ hop hp x hold
              · exact grounded_plan hallow w.clock e
                  (fun hi hc => view_of_clean hA hi hc) x hnew
    | begin =>
        rcases exec_begin hx with ⟨-, rfl⟩ | ⟨-, -, rfl⟩
        · exact fun x hmem => hkeep x (h.grounded q op ws hop hws x hmem) rfl
        · rw [Store.begin_pending_self, Option.some.injEq] at hws
          subst hws
          exact fun x hmem => (nomatch hmem)
    | commit =>
        rcases exec_commit hx with ⟨-, rfl⟩ | ⟨-, rfl⟩
        · rw [Store.rollback_pending_self] at hws
          cases hws
        · rw [Store.commit_pending_self] at hws
          cases hws
    | rollback =>
        rw [exec_rollback hx, Store.rollback_pending_self] at hws
        cases hws
    | _ =>
        have htables := exec_silent rfl hx
        rw [htables] at hws
        exact fun x hmem => hkeep x (h.grounded q op ws hop hws x hmem)
          (congrArg Store.committed htables)
  · rw [Function.update_of_ne hqp] at hop' ⊢
    have hstep := exec_step hx
    rw [hstep.pending_of_ne hqp] at hws
    intro x hmem
    have hx' := h.grounded q op' ws hop' hws x hmem
    cases x with
    | updateUser id set now =>
        rcases hx' with hnone | ⟨hlink, hfree, hsub⟩
        · exact .inl hnone
        · -- the row is locked until the link commits
          have howner := h.sound q ws _ (.user id) hws hmem rfl
          have hsame := h.sound.still hstep (googleId_protects id) howner hqp
          exact .inr ⟨hlink, hsame.trans hfree, hsub⟩
    | insertUser row => exact hx'
    | _ => trivial

theorem step (h : Kept S w o gs) (hA : Attended w gs) (hop : (gs p).op = some op)
    (hallow : (gs p).Allows S op a) (hx : exec S p a e w = some (b, w')) :
    Kept S w' (o.step w p op a b w') (Function.update gs p ((gs p).next a b)) := by
  have hvisit : o.visits p = gs p := h.same p (by rw [hop]; exact Option.some_ne_none _)
  have hmoves : Moves S op (gs p) w.db w'.db :=
    moves_step hA hallow (fun ws hws => h.grounded p op ws hop hws) hx
  refine ⟨h.unique.step hx, (exec_step hx).sound h.sound, fun q hq => ?_,
    fun q op' ws hop' hws => h.step_grounded hA hop hallow hx hop' hws, fun l hl => ?_,
    fun q _ => List.mem_cons_self, fun q => ?_, fun q d hd => ?_, fun q l hl => ?_,
    fun q user hu => ?_, fun q op' hop' hlogin hissued => ?_⟩
  · by_cases hqp : q = p
    · subst hqp
      show Function.update o.visits q _ q = _
      rw [Function.update_self, Function.update_self, hvisit]
    · rw [Function.update_of_ne hqp] at hq ⊢
      exact (Function.update_of_ne hqp _ _).trans (h.same q hq)
  · rcases List.mem_append.mp hl with hnew | hold
    · rw [hvisit] at hnew
      exact hmoves.rightful hnew
    · exact h.rightful l hold
  · show Function.update o.past p (w'.db :: o.states p) q ⊆ w'.db :: o.states q
    by_cases hqp : q = p
    · subst hqp
      rw [Function.update_self]
      exact List.Subset.refl _
    · rw [Function.update_of_ne hqp]
      exact fun d hd => List.mem_cons_of_mem _ (h.within q hd)
  · rcases List.mem_cons.mp hd with rfl | hold
    · exact fun _ _ hg => hg
    · exact fun u g hg => hmoves.persists u g (h.persists q d hold u g hg)
  · show ∃ d ∈ Function.update o.past p (w'.db :: o.states p) q, Looked d l
    by_cases hqp : q = p
    · subst hqp
      rw [Function.update_self] at hl ⊢
      rcases looks_step hA hx hl with hold | hnew
      · obtain ⟨d, hd, hlooked⟩ := h.looks q l hold
        exact ⟨d, List.mem_cons_of_mem _ (h.within q hd), hlooked⟩
      · have hhere := h.here q (by rw [hop]; exact Option.some_ne_none _)
        exact ⟨w.db, List.mem_cons_of_mem _ hhere, hnew⟩
    · rw [Function.update_of_ne hqp] at hl ⊢
      exact h.looks q l hl
  · show ∃ d ∈ Function.update o.past p (w'.db :: o.states p) q, user ∈ d.users.rows
    by_cases hqp : q = p
    · subst hqp
      rw [Function.update_self] at hu ⊢
      rcases created_step hA hx hu with hold | hnew
      · obtain ⟨d, hd, hmem⟩ := h.created q user hold
        exact ⟨d, List.mem_cons_of_mem _ (h.within q hd), hmem⟩
      · exact ⟨w'.db, List.mem_cons_self, hnew⟩
    · rw [Function.update_of_ne hqp] at hu ⊢
      exact h.created q user hu
  · by_cases hqp : q = p
    · subst hqp
      rw [Function.update_self] at hop' ⊢
      rw [(gs q).next_op, hop, Option.some.injEq] at hop'
      subst hop'
      refine escaped_next hallow hlogin fun hno => ?_
      change (if issuing a b then Function.update o.issued q true else o.issued) q = true
        at hissued
      rw [if_neg hno] at hissued
      exact h.escaped q op hop hlogin hissued
    · rw [Function.update_of_ne hqp] at hop' ⊢
      refine h.escaped q op' hop' hlogin ?_
      change (if issuing a b then Function.update o.issued p true else o.issued) q = true
        at hissued
      split at hissued
      next => rwa [Function.update_of_ne hqp] at hissued
      next => exact hissued

/-- A step that changes no account. -/
theorem moved (h : Kept S w o gs) (hunique : KeysUnique w'.tables)
    (hsound : Store.Sound Write.touches w'.tables) (husers : w'.db.users = w.db.users)
    {gs' : Pid → Visit} {visits : Pid → Visit}
    (hsame : ∀ p, (gs' p).op ≠ none → visits p = gs' p)
    (hgrounded : ∀ p op ws, (gs' p).op = some op → w'.tables.pending p = some ws →
      ∀ x ∈ ws, Grounded S op (gs' p) w'.db x)
    (hold : ∀ p, gs' p = gs p ∨ gs' p = (gs p).settle ∨ gs' p = Visit.idle) :
    Kept S w' { o.moved w w' with visits := visits } gs' := by
  have hgoogle : ∀ u, googleIdOf w'.db u = googleIdOf w.db u := by
    intro u
    unfold googleIdOf
    rw [husers]
  refine ⟨hunique, hsound, hsame, hgrounded, fun l hl => ?_, fun q _ => List.mem_cons_self,
    fun q d hd => List.mem_cons_of_mem _ (h.within q hd), fun q d hd => ?_, fun q l hl => ?_,
    fun q user hu => ?_, fun q op' hop' hlogin hissued => ?_⟩
  · rcases List.mem_append.mp hl with hnew | hold
    · obtain ⟨-, -, hne, -⟩ := mem_newLinks hnew
      exact absurd (hgoogle l.user) hne
    · exact h.rightful l hold
  · rcases List.mem_cons.mp hd with rfl | hold
    · exact fun _ _ hg => hg
    · exact fun u g hg => (hgoogle u).trans (h.persists q d hold u g hg)
  · refine h.looks q l ?_
    rcases hold q with heq | heq | heq
    · rwa [heq] at hl
    · rwa [heq] at hl
    · rw [heq] at hl
      cases hl
  · refine h.created q user ?_
    rcases hold q with heq | heq | heq
    · rwa [heq] at hu
    · rwa [heq] at hu
    · rw [heq] at hu
      cases hu
  · rcases hold q with heq | heq | heq
    · rw [heq] at hop' ⊢
      exact h.escaped q op' hop' hlogin hissued
    · rw [heq] at hop' ⊢
      exact h.escaped q op' hop' hlogin hissued
    · rw [heq] at hop'
      cases hop'

theorem ambient (h : Kept S w o gs) (hx : Accounts.ambient e w = some w') :
    Kept S w' (o.moved w w') gs := by
  obtain ⟨hpending, howner, husers, -⟩ := ambient_frame hx
  refine h.moved (h.unique.ambient hx) ?_ husers h.same ?_ fun _ => .inl rfl
  · intro q ws x k hws
    rw [hpending] at hws
    rw [howner]
    exact h.sound q ws x k hws
  · intro q op ws hop hws x hmem
    rw [hpending] at hws
    have hg := h.grounded q op ws hop hws x hmem
    cases x with
    | updateUser id set now =>
        rcases hg with hnone | ⟨hlink, hfree, hsub⟩
        · exact .inl hnone
        · refine .inr ⟨hlink, ?_, hsub⟩
          unfold googleIdOf
          rw [husers]
          exact hfree
    | insertUser row => exact hg
    | _ => trivial

theorem reboot (h : Kept S w o gs) (hx : Accounts.reboot e w = some w') (alive : Pid → Bool) :
    Kept S w' (o.rebooted w w') fun p => if alive p then (gs p).settle else Visit.idle := by
  have hunique := h.unique.reboot hx
  cases hx
  refine h.moved hunique (Store.Sound.crash _) rfl (fun q hq => ?_)
    (fun q op ws _ hws => (nomatch hws)) fun q => ?_
  · by_cases halive : alive q = true
    · rw [if_pos halive] at hq ⊢
      show (o.visits q).settle = _
      rw [h.same q hq]
    · rw [if_neg halive] at hq
      exact absurd rfl hq
  · split
    next => exact .inr (.inl rfl)
    next => exact .inr (.inr rfl)

end Kept

/-! ## §5. Runs. -/

/-- A monitor that asks for nothing. -/
def free : Monitor Act Unit := ⟨fun _ _ => True, fun _ _ _ _ => True⟩

theorem wp_free {α ε : Type} (p : Prog Act ε α) :
    wp free (fun _ _ => True) (fun _ _ => True) p () := by
  induction p with
  | ret r => trivial
  | fail x => trivial
  | act a k ih => exact ⟨trivial, fun b _ _ => ih b⟩

/-- The reply of a sign-in. -/
theorem returned_provider {S : Settings} {O : Type} {V : Watch Act World Env Op O} {w : World}
    {o₀ o : O} {c : Conf} (h : (system S).Reach V (Config.init w) o₀ c o) {p : Pid} {op : Op}
    {r : Reply} (hop : op.isGoogleLogin = true) (hr : c.returned p op r) :
    ∃ session, r = .provider session := by
  have hbody : ∀ op, wp free
      (fun r _ => op.isGoogleLogin = true → ∃ session, r = Reply.provider session)
      (fun _ _ => True) ((system S).body op) () := by
    intro op
    cases op with
    | googleLogin credential =>
        refine wp_seq (wp_mono _ _ (fun session _ _ => ?_) (fun _ _ h => h) (wp_free _))
        exact fun _ => ⟨session, rfl⟩
    | _ => exact wp_mono _ _ (fun _ _ _ hlogin => (nomatch hlogin)) (fun _ _ h => h) (wp_free _)
  obtain ⟨gs, -, hT⟩ : ∃ gs, True ∧ System.Tracks (fun _ => free) ()
      (fun op r _ => op.isGoogleLogin = true → ∃ session, r = Reply.provider session)
      (fun _ _ _ => True) c gs :=
    System.Reach.sound (fun _ => ()) (fun _ _ _ => True)
      (fun {_ _ _ op} _ => hbody op) (fun _ _ _ => trivial)
      (fun _ _ _ _ => ⟨(), trivial, trivial⟩) (fun _ _ => trivial) (fun _ _ _ _ _ => trivial)
      trivial h
  exact hT.returned hr hop

section Conclusions

variable {S : Settings} {c : Conf} {o : History} {gs : Pid → Visit} {p : Pid} {op : Op}
  {sub email : String}

/-- No subject has two accounts. -/
theorem eq_of_googleId (hK : Kept S c.world o gs) {u u' : User} (hu : u ∈ c.world.db.users.rows)
    (hu' : u' ∈ c.world.db.users.rows) {sub : String} (hsub : u.googleId = some sub)
    (hsub' : u'.googleId = some sub) : u = u' := by
  have hunique : c.world.db.KeysUnique := hK.unique.committed
  exact hunique.eq_of_mem hu hu' (googleId_mem_keysOf.mpr hsub) (googleId_mem_keysOf.mpr hsub')

/-- What the history knows of a call is what its visit knows. -/
theorem visits_eq (hK : Kept S c.world o gs)
    (hT : System.Tracks (attendant S) Visit.idle (fun op r v => Visited S op r v ∧ v.op = some op)
      (fun op e v => Refused S op e v ∧ v.op = some op) c gs)
    (hp : (c.calls p).map Task.op = some op) : o.visits p = gs p ∧ (gs p).op = some op := by
  have hop := visited_op hT hp
  exact ⟨hK.same p (by rw [hop]; exact Option.some_ne_none _), hop⟩

/-- A session is for the one account that has the subject: the row the call was
shown was committed, and its identity has stayed. -/
theorem session_owner (hK : Kept S c.world o gs) {tokens : AuthTokens}
    (hsession : ∃ user, (gs p).SignsIn S user ∧ tokens.IsFor user.id) :
    ∃ sub, (gs p).subject = some sub ∧ ∃ u ∈ c.world.db.users.rows,
      u.googleId = some (S.trim sub) ∧ tokens.IsFor u.id ∧
        ∀ u' ∈ c.world.db.users.rows, u'.googleId = some (S.trim sub) → u' = u := by
  obtain ⟨user, ⟨sub, hsub, hgoogle, hshows⟩, hfor⟩ := hsession
  have hseen : ∃ d ∈ o.past p, user ∈ d.users.rows := by
    rcases hshows with hcreated | ⟨cond, hlook⟩
    · exact hK.created p user hcreated
    · obtain ⟨d, hd, hlooked, -⟩ := hK.looks p _ hlook
      exact ⟨d, hd, (hlooked user rfl).1⟩
  obtain ⟨d, hd, hmem⟩ := hseen
  have hid : googleIdOf d user.id = some (some (S.trim sub)) := by
    unfold googleIdOf
    rw [Table.mem_rows.mp hmem, Option.map_some, hgoogle]
  obtain ⟨u, hget, hu⟩ :=
    Option.map_eq_some_iff.mp (hK.persists p d (hK.within p hd) user.id _ hid)
  obtain ⟨hrow, hkey⟩ := Table.get_eq_some.mp hget
  refine ⟨sub, hsub, u, hrow, hu, ?_, fun u' hu' hsub' => eq_of_googleId hK hu' hrow hsub' hu⟩
  rw [show u.id = user.id from hkey]
  exact hfor

/-- Where the subject is linked to nobody and the e-mail has an account in every
state committed during the call, both lookups say so. -/
theorem not_escaped (hK : Kept S c.world o gs) (hsub : (gs p).subject = some sub)
    (hemail : (gs p).email = some email)
    (hpast : ∀ d ∈ o.past p, (∀ u ∈ d.users.rows, u.googleId ≠ some (S.trim sub)) ∧
      ∃ u ∈ d.users.rows, u.email = S.toLowerCase (S.trim email)) : ¬ (gs p).Escaped S := by
  rintro (⟨sub', user, hsub', hlook⟩ | ⟨email', hemail', hlook⟩)
  · rw [hsub, Option.some.injEq] at hsub'
    subst hsub'
    obtain ⟨d, hd, hlooked, -⟩ := hK.looks p _ hlook
    obtain ⟨hmem, hcond⟩ := hlooked user rfl
    exact (hpast d hd).1 user hmem (eq_of_beq hcond)
  · rw [hemail, Option.some.injEq] at hemail'
    subst hemail'
    obtain ⟨d, hd, -, hlooked⟩ := hK.looks p _ hlook
    obtain ⟨u, hmem, hu⟩ := (hpast d hd).2
    have hcond : byEmail S email u = false := hlooked rfl u hmem
    unfold byEmail at hcond
    rw [beq_iff_eq.mpr hu] at hcond
    cases hcond

end Conclusions

/-- **No provider identity is linked in silence.**  In every interleaving of all
the account calls: a sign-in returns a session only for the one account that has
the subject; an identity changes only as `Link.Rightful` says; no subject has two
accounts; and a sign-in past the challenge check, whose subject is linked to
nobody and whose e-mail has an account in every state committed during the call,
writes no session, returns the request to confirm, fails only with the database,
and until then does nothing but its two lookups. -/
theorem no_silent_linking {S : Settings} {d : Db} (hd : d.KeysUnique) {clock : Timestamp}
    {c : Conf} {o : History}
    (h : (system S).Reach watch (Config.init (World.boot d clock)) History.blank c o) :
    (∀ p op tokens, op.isGoogleLogin = true → c.returned p op (.provider (some tokens)) →
      ∃ sub, (o.visits p).subject = some sub ∧ ∃ u ∈ c.world.db.users.rows,
        u.googleId = some (S.trim sub) ∧ tokens.IsFor u.id ∧
          ∀ u' ∈ c.world.db.users.rows, u'.googleId = some (S.trim sub) → u' = u) ∧
    (∀ l ∈ o.links, l.Rightful S) ∧
    (∀ u ∈ c.world.db.users.rows, ∀ u' ∈ c.world.db.users.rows, ∀ sub,
      u.googleId = some sub → u'.googleId = some sub → u = u') ∧
    ∀ p op sub email, (c.calls p).map Task.op = some op → op.isGoogleLogin = true →
      (o.visits p).passed = true → (o.visits p).subject = some sub →
      (o.visits p).email = some email →
      (∀ d ∈ o.past p, (∀ u ∈ d.users.rows, u.googleId ≠ some (S.trim sub)) ∧
        ∃ u ∈ d.users.rows, u.email = S.toLowerCase (S.trim email)) →
      o.issued p = false ∧ (∀ r, c.returned p op r → r = .provider none) ∧
        (∀ x, c.failed p op x → x = .statementFailed) ∧
        ∀ {β : Type} (a : Act β) k, c.calls p = some ⟨op, .act a k⟩ →
          a.IsLook ∧ (o.visits p).looks.length < 2 := by
  obtain ⟨gs, -, hK, hT⟩ := visited_run (S := S) (V := watch) (Kept S)
    (fun {_ _ _ _ op} hA hK hidle _ => hK.invoke hA hidle op)
    (fun hA hK hop hallow _ hx => hK.step hA hop hallow hx)
    (fun hK hx => hK.ambient hx) (fun alive hK hx => hK.reboot hx alive)
    (Kept.boot S hd clock) h
  refine ⟨fun p op tokens hlogin hr => ?_, hK.rightful,
    fun u hu u' hu' sub hsub hsub' => eq_of_googleId hK hu hu' hsub hsub',
    fun p op sub email hp hlogin hpassed hsub hemail hpast => ?_⟩
  · have hcall : (c.calls p).map Task.op = some op := by
      rw [hr]
      rfl
    rw [(visits_eq hK hT hcall).1]
    exact session_owner hK ((hT.returned hr).1.session tokens hlogin rfl).2
  · obtain ⟨hvisit, hop⟩ := visits_eq hK hT hp
    rw [hvisit] at hpassed hsub hemail ⊢
    have hstays := not_escaped hK hsub hemail hpast
    refine ⟨?_, fun r hr => ?_, fun x hx => ?_, fun a k hcall => ?_⟩
    · by_contra hissued
      exact hstays (hK.escaped p op hop hlogin (by simpa using hissued)).2
    · obtain ⟨session, rfl⟩ := returned_provider h hlogin hr
      cases session with
      | none => rfl
      | some tokens => exact absurd ((hT.returned hr).1.session tokens hlogin rfl).1 hstays
    · rcases (hT.failed hx).1 hlogin hpassed with hescaped | hfailed
      · exact absurd hescaped hstays
      · exact hfailed
    · have hallow : (gs p).Allows S op a := (hT.allow hcall).1
      rcases hallow.looking hlogin hpassed with hescaped | hlook
      · exact absurd hescaped hstays
      · exact hlook

/-! ## §6. A run. -/

section Run

open OAuth

/-- Call `p` draws and stores the challenge `text`. -/
def draws (p : Pid) (text : String) (id : Nat) : List (Event Env Op) :=
  [.invoke p (.createChallenge .google), .step p { text := text }, .step p {},
   .step p { uuid := id }]

/-- Steve signs in with Google and is asked to confirm, while he is linking his
account in another window; then he signs in once more. -/
def linkEvents : List (Event Env Op) :=
  draws 0 jti₁ 5 ++ draws 1 jti₂ 6 ++ draws 2 jti₃ 7 ++
  ([.invoke 3 (.googleLogin "first"), .step 3 { payload := some (steveToken jti₁) },
   .step 3 {}, .step 3 {}, .step 3 {}, .step 3 {},
   .invoke 4 (.googleLink 3 "second"), .step 4 { payload := some (steveToken jti₂) },
   .step 4 {}, .step 4 {}, .step 4 {}, .step 4 {}, .step 3 {}, .step 4 {}, .step 4 {},
   .invoke 5 (.googleLogin "third"), .step 5 { payload := some (steveToken jti₃) },
   .step 5 {}, .step 5 {}, .step 5 {}, .step 5 {}, .step 5 { text := jti₁ }, .step 5 {},
   .step 5 {}, .step 5 { uuid := 9 }, .step 5 {}] : List (Event Env Op))

/-- Whether sign-in `p` has returned a session. -/
def signedIn (c : Conf) (p : Pid) : Option (Op × Bool) :=
  match c.result p with
  | some (op, .provider session) => some (op, session.isSome)
  | _ => none

theorem returned_of_signedIn {c : Conf} {p : Pid} {op : Op} (h : signedIn c p = some (op, true)) :
    ∃ tokens, c.returned p op (.provider (some tokens)) := by
  unfold signedIn at h
  split at h
  next op' session hresult =>
    cases session with
    | none => simp at h
    | some tokens =>
        obtain ⟨rfl, -⟩ := Prod.mk.inj (Option.some.inj h)
        exact ⟨tokens, Config.returned_of_result hresult⟩
  next => cases h

/-- No account has steve's subject, and one has his e-mail. -/
def unlinked (d : Db) : Bool :=
  d.users.rows.all (fun u => decide (u.googleId ≠ some "108")) &&
    d.users.rows.any fun u => decide (u.email = "steve@example.com")

def linkTest (c : Conf) (o : History) : Bool :=
  decide (signedIn c 3 = some (.googleLogin "first", false)) &&
    decide (signedIn c 5 = some (.googleLogin "third", true)) && (o.visits 3).passed &&
    decide ((o.visits 3).subject = some "108") &&
    decide ((o.visits 3).email = some "steve@example.com") &&
    decide ((c.calls 3).map Task.op = some (.googleLogin "first")) && (o.past 3).all unlinked &&
    decide (o.links.map Link.user = [3])

theorem sampleDb_unique : sampleDb.KeysUnique := by
  have hall : ∀ r ∈ sampleDb.users.rows, ∀ r' ∈ sampleDb.users.rows, ∀ k ∈ keysOf r,
      k ∈ keysOf r' → r.id = r'.id := by
    decide
  rintro k u v ⟨r, hr, hk⟩ ⟨r', hr', hk'⟩
  obtain ⟨hmem, rfl⟩ := Table.get_eq_some.mp hr
  obtain ⟨hmem', rfl⟩ := Table.get_eq_some.mp hr'
  exact hall r hmem r' hmem' k hk hk'

theorem linkRun_not_silent : ∃ c o,
    (system googleSettings).Reach watch (Config.init sampleWorld) History.blank c o ∧
      signedIn c 3 = some (.googleLogin "first", false) ∧ o.issued 3 = false ∧
      o.links.map Link.user = [3] ∧ (∀ l ∈ o.links, l.Rightful googleSettings) ∧
      ∃ tokens, c.returned 5 (.googleLogin "third") (.provider (some tokens)) ∧
        ∃ u ∈ c.world.db.users.rows, tokens.IsFor u.id ∧
          ∀ u' ∈ c.world.db.users.rows, u'.googleId = u.googleId → u' = u := by
  obtain ⟨c, o, h, ht⟩ := System.Reach.of_replay (S := system googleSettings) (V := watch)
    sampleWorld History.blank linkEvents linkTest (by decide +kernel)
  simp only [linkTest, Bool.and_eq_true, decide_eq_true_eq, List.all_eq_true] at ht
  obtain ⟨⟨⟨⟨⟨⟨⟨hfirst, hthird⟩, hpassed⟩, hsub⟩, hemail⟩, hcall⟩, hpast⟩, hlinks⟩ := ht
  obtain ⟨hsession, hrightful, -, hsilent⟩ := no_silent_linking sampleDb_unique h
  have hthroughout : ∀ d ∈ o.past 3, (∀ u ∈ d.users.rows, u.googleId ≠ some "108") ∧
      ∃ u ∈ d.users.rows, u.email = "steve@example.com" := by
    intro d hd
    have hunlinked := hpast d hd
    simp only [unlinked, Bool.and_eq_true, List.all_eq_true, List.any_eq_true,
      decide_eq_true_eq] at hunlinked
    exact hunlinked
  have hissued := (hsilent 3 _ "108" "steve@example.com" hcall rfl hpassed hsub hemail
    hthroughout).1
  obtain ⟨tokens, hr⟩ := returned_of_signedIn hthird
  obtain ⟨sub, -, u, hu, hgoogle, hfor, honly⟩ := hsession 5 _ tokens rfl hr
  exact ⟨c, o, h, hfirst, hissued, hlinks, hrightful, tokens, hr, u, hu, hfor,
    fun u' hu' heq => honly u' hu' (heq.trans hgoogle)⟩

end Run

end Linking

end MinePanel.Accounts
