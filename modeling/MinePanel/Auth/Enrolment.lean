/-
  MinePanel.Auth.Enrolment
  ────────────────────────
  **ENROLMENT AND BACKUP CODES.**

  `setup2FA`, `confirm2FA`, `disable2FA` and `removeTwoFactor` read the row of
  their user and later update it without a condition; only a backup code is
  taken off the stored list by compare-and-set.

  The history holds every enrolment (an UPDATE of `confirm2FA`) and every
  accepted backup code.  In every run the stored list is the one of the last
  enrolment without the codes accepted since (`Base`); so a code is accepted
  once (`backup_codes_single_use`).  The secret is another matter: a `setup2FA`
  or a second `confirm2FA` that read the row before the first one enabled it,
  and a removal between a `confirm2FA` and its UPDATE, tear the row apart.
  Without these races it stays whole (`enrolment_holds`).
-/
import MinePanel.Accounts.Credentials
import Mathlib.Data.List.Pairwise

namespace MinePanel.Accounts

open MinePanel.Db MinePanel.Lib Prog

namespace Enrolment

/-! ## §1. The history. -/

/-- One enrolment: what `confirm2FA` had read and drawn at its UPDATE. -/
structure Entry where
  call : Pid
  /-- It is the `round`-th enrolment of its user. -/
  round : Nat
  /-- The secret in the row it read. -/
  secret : Option String
  /-- The code it verified. -/
  token : String
  /-- The backup codes it returns, and the salts of their hashes. -/
  codes : List String
  salts : List String
  /-- Its UPDATE switched the second factor on. -/
  enabling : Bool
  deriving Repr, DecidableEq

/-- The hashes of the backup codes. -/
def Entry.hashes (S : Settings) (e : Entry) : List String := e.codes.zipWith S.hash e.salts

/-- One accepted backup code. -/
structure Acceptance where
  call : Pid
  user : UserId
  /-- The enrolment it falls into. -/
  round : Nat
  token : String
  /-- The stored hash that the code matches. -/
  hash : String
  before : List String
  after : List String
  deriving Repr, DecidableEq

/-- The history of the second factors. -/
structure History where
  journal : Journal Unit
  /-- The enrolments of every user, the last one first. -/
  enrolments : UserId → List Entry
  /-- The enrolment a call has made. -/
  enrolledBy : Pid → Option Entry
  accepted : List Acceptance
  /-- The backup code a call had accepted. -/
  acceptedBy : Pid → Option Acceptance

/-- The six digits or the backup code a call presents. -/
def presented : Op → String
  | .confirm2FA _ token => token
  | op => op.secondFactor.getD ""

namespace History

/-- Nobody has enrolled. -/
def blank : History := ⟨.blank, fun _ => [], fun _ => none, [], fun _ => none⟩

/-- The stored backup codes. -/
def stored (w : World) (u : UserId) : List String := (w.db.creds u).totpBackupCodes.getD []

/-- An UPDATE of the row `id` has found it. -/
def update (S : Settings) (o : History) (w : World) (p : Pid) (op : Op) (w' : World) (id : UserId)
    (set : UserPatch) : History :=
  if set.totpEnabled = some true then
    let e : Entry :=
      { call := p
        round := (o.enrolments id).length + 1
        secret := (o.journal.last p).bind User.totpSecret
        token := presented op
        codes := (o.journal.drawn p).take 8
        salts := (o.journal.drawn p).drop 8
        enabling := !(w.db.creds id).totpEnabled }
    { o with
      enrolments := Function.update o.enrolments id (e :: o.enrolments id)
      enrolledBy := Function.update o.enrolledBy p (some e) }
  else if set.totpBackupCodes.any Option.isSome then
    let x : Acceptance :=
      { call := p
        user := id
        round := (o.enrolments id).length
        token := presented op
        hash := ((stored w id).find? (S.compare (presented op))).getD ""
        before := stored w id
        after := stored w' id }
    { o with accepted := x :: o.accepted, acceptedBy := Function.update o.acceptedBy p (some x) }
  else o

/-- A step of call `p`. -/
def step (S : Settings) (o : History) (w : World) (p : Pid) (op : Op) {β : Type} (a : Act β) (b : β)
    (w' : World) : History :=
  { (match a.updated b with
      | some (id, set) => o.update S w p op w' id set
      | none => o) with
    journal := o.journal.step (fun _ => ()) p a b }

/-- A new call. -/
def opened (o : History) (p : Pid) : History :=
  { o with
    journal := o.journal.opened p
    enrolledBy := Function.update o.enrolledBy p none
    acceptedBy := Function.update o.acceptedBy p none }

/-- The enrolment that switched the second factor of `u` on. -/
def enabler (o : History) (u : UserId) : Option Entry := (o.enrolments u).find? Entry.enabling

/-- The hashes accepted in the enrolment `round` of `u`. -/
def spent (o : History) (u : UserId) (round : Nat) : List String :=
  (o.accepted.filter fun x => decide (x.user = u ∧ x.round = round)).map Acceptance.hash

/-- The hashes of an enrolment of `u` that have not been accepted. -/
def remaining (S : Settings) (o : History) (u : UserId) (e : Entry) : List String :=
  (e.hashes S).filter fun hash => decide (hash ∉ o.spent u e.round)

end History

/-- Every interleaving. -/
def enrolling (S : Settings) : Watch Act World Env Op History where
  onInvoke := fun o _ p _ => o.opened p
  onStep := fun o w p op _ a b w' => o.step S w p op a b w'

/-- The UPDATE of `users` a step is about to make. -/
def patching : ∀ {β : Type}, Act β → Option (UserId × UserPatch)
  | _, .query (.updateUser id _ set) => some (id, set)
  | _, _ => none

/-- Neither a secret nor an enrolment is written over an enabled second factor,
and an enrolment finds the secret its call has read. -/
def calm (o : History) (w : World) (p : Pid) (id : UserId) (set : UserPatch) : Bool :=
  if set.totpSecret.any Option.isSome then !(w.db.creds id).totpEnabled
  else if set.totpEnabled = some true then
    !(w.db.creds id).totpEnabled
      && decide ((w.db.creds id).totpSecret = (o.journal.last p).bind User.totpSecret)
  else true

/-- The interleavings without the three races. -/
def steady (S : Settings) : Watch Act World Env Op History :=
  { enrolling S with
    guard := fun o w p _ _ a _ =>
      match patching a with
      | some (id, set) => calm o w p id set
      | none => true }

/-- Each code compares only with its own hash. -/
def Exclusive (S : Settings) (pairs : List (String × String)) : Prop :=
  pairs.Pairwise fun x y => S.compare x.1 y.2 = false ∧ S.compare y.1 x.2 = false

instance (S : Settings) (pairs : List (String × String)) : Decidable (Exclusive S pairs) :=
  inferInstanceAs (Decidable (List.Pairwise _ _))

/-- The hashes of a new enrolment are new and distinct, and each of its codes
compares only with its own. -/
def apart (S : Settings) (o : History) (p : Pid) (id : UserId) (set : UserPatch) : Bool :=
  match set.totpEnabled, set.totpBackupCodes with
  | some true, some (some hashes) =>
      decide ((hashes ++ (o.enrolments id).flatMap (Entry.hashes S)).Nodup)
        && decide (Exclusive S (((o.journal.drawn p).take 8).zip hashes))
  | _, _ => true

/-- The interleavings in which hashes are distinct and comparisons exact. -/
def distinct (S : Settings) : Watch Act World Env Op History :=
  { enrolling S with
    guard := fun o _ p _ _ a _ =>
      match patching a with
      | some (id, set) => apart S o p id set
      | none => true }

/-! ## §2. What a step does to a second factor. -/

/-- The columns of the second factor. -/
structure Factor where
  totpSecret : Option String
  totpEnabled : Bool
  totpBackupCodes : Option (List String)
  deriving Repr, DecidableEq

/-- The second factor of `u` in the tables. -/
def factor (w : World) (u : UserId) : Factor :=
  ⟨(w.db.creds u).totpSecret, (w.db.creds u).totpEnabled, (w.db.creds u).totpBackupCodes⟩

/-- The patch sets no column of the second factor. -/
def Leaves (set : UserPatch) : Prop :=
  set.totpSecret = none ∧ set.totpEnabled = none ∧ set.totpBackupCodes = none

theorem leaves_of_plain {set : UserPatch} (h : set.IsPlain) : Leaves set := by
  have hsecond := h.2
  simp only [UserPatch.powers] at hsecond
  unfold Leaves
  cases h₁ : set.totpSecret <;> cases h₂ : set.totpEnabled <;>
    cases h₃ : set.totpBackupCodes <;> simp_all

/-- What a patch does to a second factor. -/
def patched (set : UserPatch) (f : Factor) : Factor :=
  ⟨set.totpSecret.getD f.totpSecret, set.totpEnabled.getD f.totpEnabled,
    set.totpBackupCodes.getD f.totpBackupCodes⟩

theorem Leaves.patched {set : UserPatch} (h : Leaves set) (f : Factor) : patched set f = f := by
  obtain ⟨h₁, h₂, h₃⟩ := h
  simp [Enrolment.patched, h₁, h₂, h₃]

/-- Why a step moves the second factor of `id`. -/
inductive Shape (S : Settings) (w : World) (n : Notes) (id : UserId) : Op → UserPatch → Prop where
  | setup {secret} : Shape S w n id (.setup2FA id) (setupPatch secret)
  | confirm {token user t codes salts} : n.read = some user → user.id = id →
      (truthy user.totpSecret).isSome = true → totpAt S user token t = true →
      n.drawn = codes ++ salts → codes.length = 8 → salts.length = 8 →
      Shape S w n id (.confirm2FA id token) (enrolPatch (codes.zipWith S.hash salts))
  | removal {op} : Shape S w n id op removalPatch
  | backup {op token codes hash} : op.secondFactor = some token →
      (factor w id).totpBackupCodes = some codes → codes.find? (S.compare token) = some hash →
      Shape S w n id op (backupPatch (codes.filter fun code => code != hash))

/-- No transaction commits a second factor. -/
theorem staged_leaves {S : Settings} {n : Notes} {op : Op} (h : Staged S n op) :
    ∀ x ∈ n.staged, Leaves x.2 := by
  have hplain : (∀ x ∈ n.staged, x.2.IsPlain) → ∀ x ∈ n.staged, Leaves x.2 :=
    fun h x hx => leaves_of_plain (h x hx)
  have hone : ∀ (u : UserId) (set : UserPatch), Leaves set → n.staged = [(u, set)] →
      ∀ x ∈ n.staged, Leaves x.2 := by
    intro u set hset hstaged x hx
    rw [hstaged] at hx
    rw [List.mem_singleton.mp hx]
    exact hset
  have hnone : n.staged = [] → ∀ x ∈ n.staged, Leaves x.2 := by
    intro hstaged x hx
    rw [hstaged] at hx
    exact absurd hx List.not_mem_nil
  cases op with
  | resetPassword userId =>
      rcases h with h | ⟨_, _, _, -, h⟩
      · exact hnone h
      · exact hone _ _ ⟨rfl, rfl, rfl⟩ h
  | updatePassword userId oldPassword newPassword cookie temporaryAuth =>
      rcases h with h | ⟨-, _, _, _, -, -, -, -, h⟩
      · exact hnone h
      · exact hone _ _ ⟨rfl, rfl, rfl⟩ h
  | _ => exact hplain h

theorem enact_leaves {ps : List (UserId × UserPatch)} (h : ∀ x ∈ ps, Leaves x.2) (u : UserId)
    (c : Credentials) : (enact u ps c).totpSecret = c.totpSecret ∧
      (enact u ps c).totpEnabled = c.totpEnabled ∧
      (enact u ps c).totpBackupCodes = c.totpBackupCodes := by
  induction ps generalizing c with
  | nil => exact ⟨rfl, rfl, rfl⟩
  | cons x ps ih =>
      obtain ⟨h₁, h₂, h₃⟩ := h x List.mem_cons_self
      have htail := ih (fun y hy => h y (List.mem_cons_of_mem _ hy))
        (if x.1 = u then x.2.act c else c)
      show _ ∧ _ ∧ _
      have hhead : (if x.1 = u then x.2.act c else c).totpSecret = c.totpSecret ∧
          (if x.1 = u then x.2.act c else c).totpEnabled = c.totpEnabled ∧
          (if x.1 = u then x.2.act c else c).totpBackupCodes = c.totpBackupCodes := by
        split
        next => simp [UserPatch.act, h₁, h₂, h₃]
        next => exact ⟨rfl, rfl, rfl⟩
      exact ⟨htail.1.trans hhead.1, htail.2.1.trans hhead.2.1, htail.2.2.trans hhead.2.2⟩

section Steps

variable {S : Settings} {p : Pid} {op : Op} {e : Env} {w w' : World} {gs : Pid → Notes}

/-- A step whose patches leave the second factors alone. -/
theorem factor_of_leaves {β : Type} {a : Act β} {b : β} (h : Booked w gs)
    (hx : exec S p a e w = some (b, w')) (hl : ∀ x ∈ (gs p).commits a b, Leaves x.2) (u : UserId) :
    factor w' u = factor w u := by
  obtain ⟨h₁, h₂, h₃⟩ := enact_leaves hl u (w.db.creds u)
  unfold factor
  rw [h.creds_step hx u, h₁, h₂, h₃]

/-- **What a step does to the second factors**: nothing, or one of four
UPDATEs. -/
theorem factor_step {β : Type} {a : Act β} {b : β} (h : Booked w gs)
    (ha : (gs p).allow S op a) (hx : exec S p a e w = some (b, w')) :
    ((∀ u, factor w' u = factor w u) ∧
        ∀ id set, a.updated b = some (id, set) → Leaves set) ∨
      ∃ id set, a.updated b = some (id, set) ∧ patching a = some (id, set) ∧
        Shape S w (gs p) id op set ∧ factor w' id = patched set (factor w id) ∧
        ∀ u, u ≠ id → factor w' u = factor w u := by
  cases deed ha b with
  | none hupdated hcommits _ =>
      refine Or.inl ⟨factor_of_leaves h hx ?_, fun id set hs => ?_⟩
      · rw [hcommits]
        exact fun x hx => absurd hx List.not_mem_nil
      · rw [hupdated] at hs
        cases hs
  | commit hstaged =>
      refine Or.inl ⟨factor_of_leaves h hx (staged_leaves hstaged), fun id set hs => ?_⟩
      have hs : none = some (id, set) := hs
      cases hs
  | @update id cond set row hwhy =>
      have hleaves : Leaves set → (∀ u, factor w' u = factor w u) ∧
          ∀ id' set', Act.updated (.query (.updateUser id cond set))
            (.ok (some row)) = some (id', set') → Leaves set' := by
        intro hset
        refine ⟨factor_of_leaves h hx fun x hx => ?_, fun id' set' heq => ?_⟩
        · rw [commits_update] at hx
          split at hx
          next => exact absurd hx List.not_mem_nil
          next =>
            rw [List.mem_singleton.mp hx]
            exact hset
        · obtain ⟨-, rfl⟩ := Prod.mk.inj (Option.some.inj heq)
          exact hset
      -- an UPDATE outside a transaction is committed at once
      have hmoves : (gs p).inside = false → factor w' id = patched set (factor w id) ∧
          ∀ u, u ≠ id → factor w' u = factor w u := by
        intro hout
        have hcommits := commits_update (gs p) id cond set row
        rw [hout] at hcommits
        refine ⟨?_, fun u hu => ?_⟩
        · unfold factor
          rw [h.creds_step hx, hcommits]
          simp [enact_singleton_self, UserPatch.act, patched]
        · unfold factor
          rw [h.creds_step hx, hcommits]
          simp [enact_singleton_of_ne hu.symm]
      cases hwhy with
      | plain hplain _ => exact Or.inl (hleaves (leaves_of_plain hplain))
      | setup hout _ _ _ => exact Or.inr ⟨_, _, rfl, rfl, .setup, hmoves hout⟩
      | confirm hout hread hid _ hsecret htotp _ hdrawn hcodes hsalts =>
          exact Or.inr ⟨_, _, rfl, rfl, .confirm hread hid hsecret htotp hdrawn hcodes hsalts,
            hmoves hout⟩
      | disable hout => exact Or.inr ⟨_, _, rfl, rfl, .removal, hmoves hout⟩
      | remove hout => exact Or.inr ⟨_, _, rfl, rfl, .removal, hmoves hout⟩
      | @backup _ token user codes hash hout htoken _ _ _ hfind =>
          obtain ⟨found, -, hcond, hcreds⟩ := h.update hx (h.staged_of_outside hout)
          have hfound : found.totpBackupCodes = some codes := by simpa using hcond
          have hstored : (factor w user.id).totpBackupCodes = some codes := by
            show (w.db.creds user.id).totpBackupCodes = _
            rw [← hcreds]
            exact hfound
          exact Or.inr ⟨_, _, rfl, rfl, .backup htoken hstored hfind, hmoves hout⟩
      | consume _ _ _ _ _ _ _ _ _ => exact Or.inl (hleaves ⟨rfl, rfl, rfl⟩)
      | password _ _ _ _ => exact Or.inl (hleaves ⟨rfl, rfl, rfl⟩)
      | recovery _ _ _ _ _ _ => exact Or.inl (hleaves ⟨rfl, rfl, rfl⟩)
      | reset _ _ _ _ => exact Or.inl (hleaves ⟨rfl, rfl, rfl⟩)

end Steps

/-! ## §3. The stored list is that of the last enrolment. -/

/-- The patch is no enrolment and accepts no code. -/
def Silent (set : UserPatch) : Prop :=
  set.totpEnabled ≠ some true ∧ set.totpBackupCodes.any Option.isSome = false

theorem Leaves.silent {set : UserPatch} (h : Leaves set) : Silent set := by
  obtain ⟨-, h₂, h₃⟩ := h
  exact ⟨by simp [h₂], by simp [h₃]⟩

theorem presented_of_secondFactor {op : Op} {token : String} (h : op.secondFactor = some token) :
    presented op = token := by
  cases op with
  | verify2FA bearer token' => exact Option.some.inj h
  | disable2FA userId token' => exact Option.some.inj h
  | _ => cases h

/-- What holds in every run. -/
structure Base (S : Settings) (w : World) (o : History) (gs : Pid → Notes) : Prop where
  journal : o.journal.Covers gs
  heads : ∀ u e rest, o.enrolments u = e :: rest → e.round = rest.length + 1
  rounds : ∀ x ∈ o.accepted, x.round ≤ (o.enrolments x.user).length
  stored : ∀ u codes, (factor w u).totpBackupCodes = some codes →
    ∃ e rest, o.enrolments u = e :: rest ∧ codes = o.remaining S u e
  enrolledBy : ∀ p e, o.enrolledBy p = some e → (gs p).op.isSome = true →
    e.codes.length = 8 ∧ ∃ rest, (gs p).drawn = e.codes ++ rest

section Runs

variable {S : Settings} {p : Pid} {op : Op} {e : Env} {w w' : World} {o : History}
  {gs : Pid → Notes}

/-- The enrolment a call has made, after its next step. -/
theorem drawn_next (h : Base S w o gs) {β : Type} (a : Act β) (b : β) {q : Pid} {x : Entry}
    (hq : o.enrolledBy q = some x)
    (hop : (Function.update gs p ((gs p).next a b) q).op.isSome = true) :
    x.codes.length = 8 ∧
      ∃ rest, (Function.update gs p ((gs p).next a b) q).drawn = x.codes ++ rest := by
  by_cases hqp : q = p
  · subst hqp
    rw [Function.update_self] at hop ⊢
    rw [(gs q).next_op] at hop
    obtain ⟨hlen, rest, hdrawn⟩ := h.enrolledBy q x hq hop
    refine ⟨hlen, rest ++ a.drew b, ?_⟩
    rw [(gs q).next_drawn, hdrawn, List.append_assoc]
  · rw [Function.update_of_ne hqp] at hop ⊢
    exact h.enrolledBy q x hq hop

/-- A step that is no enrolment and accepts no code. -/
theorem step_silent {β : Type} {a : Act β} {b : β}
    (h : ∀ id set, a.updated b = some (id, set) → Silent set) :
    o.step S w p op a b w' = { o with journal := o.journal.step (fun _ => ()) p a b } := by
  unfold History.step
  split
  next id set hs =>
    obtain ⟨h₁, h₂⟩ := h id set hs
    simp only [History.update, h₁, h₂, if_false, Bool.false_eq_true]
  next => rfl

theorem Base.silent (h : Base S w o gs) {β : Type} {a : Act β} {b : β}
    (hs : ∀ id set, a.updated b = some (id, set) → Silent set)
    (hcodes : ∀ u, (factor w' u).totpBackupCodes = (factor w u).totpBackupCodes ∨
      (factor w' u).totpBackupCodes = none) :
    Base S w' (o.step S w p op a b w') (Function.update gs p ((gs p).next a b)) := by
  rw [step_silent hs]
  refine ⟨h.journal.step (fun _ => ()) a b, h.heads, h.rounds, fun u codes hu => ?_,
    fun q x hq hop => drawn_next h a b hq hop⟩
  rcases hcodes u with heq | hnone
  · rw [heq] at hu
    exact h.stored u codes hu
  · rw [hnone] at hu
    cases hu

/-- The history after an enrolment of `id`. -/
def enrolled (o : History) (w : World) (p : Pid) (op : Op) (id : UserId) : Entry where
  call := p
  round := (o.enrolments id).length + 1
  secret := (o.journal.last p).bind User.totpSecret
  token := presented op
  codes := (o.journal.drawn p).take 8
  salts := (o.journal.drawn p).drop 8
  enabling := !(w.db.creds id).totpEnabled

theorem step_enrol {β : Type} {a : Act β} {b : β} {id : UserId} {hashes : List String}
    (hu : a.updated b = some (id, enrolPatch hashes)) :
    o.step S w p op a b w' =
      { o with
        journal := o.journal.step (fun _ => ()) p a b
        enrolments := Function.update o.enrolments id (enrolled o w p op id :: o.enrolments id)
        enrolledBy := Function.update o.enrolledBy p (some (enrolled o w p op id)) } := by
  unfold History.step
  rw [hu]
  rfl

/-- Nothing has been accepted in an enrolment that is not there yet. -/
theorem Base.spent_next (h : Base S w o gs) (u : UserId) :
    o.spent u ((o.enrolments u).length + 1) = [] := by
  unfold History.spent
  rw [List.filter_eq_nil_iff.mpr, List.map_nil]
  intro x hx hround
  simp only [decide_eq_true_eq] at hround
  have hle := h.rounds x hx
  rw [hround.1, hround.2] at hle
  omega

theorem Base.enrol (h : Base S w o gs) {β : Type} {a : Act β} {b : β} {id : UserId}
    {codes salts : List String} (hop : (gs p).op = some op)
    (hu : a.updated b = some (id, enrolPatch (codes.zipWith S.hash salts)))
    (hdrawn : (gs p).drawn = codes ++ salts) (hcodes : codes.length = 8)
    (hself : factor w' id = patched (enrolPatch (codes.zipWith S.hash salts)) (factor w id))
    (hother : ∀ u, u ≠ id → factor w' u = factor w u) :
    Base S w' (o.step S w p op a b w') (Function.update gs p ((gs p).next a b)) := by
  rw [step_enrol hu]
  have hjournal : o.journal.drawn p = codes ++ salts := by
    rw [← (h.journal p (by rw [hop]; rfl)).1, hdrawn]
  have htake : (enrolled o w p op id).codes = codes := by
    show (o.journal.drawn p).take 8 = codes
    rw [hjournal, ← hcodes, List.take_left]
  have hdrop : (enrolled o w p op id).salts = salts := by
    show (o.journal.drawn p).drop 8 = salts
    rw [hjournal, ← hcodes, List.drop_left]
  refine ⟨h.journal.step (fun _ => ()) a b, fun u x rest hx => ?_, fun x hx => ?_,
    fun u stored hcodes' => ?_, fun q x hq hq' => ?_⟩
  · by_cases hui : u = id
    · subst hui
      simp only [Function.update_self, List.cons.injEq] at hx
      rw [← hx.1, ← hx.2]
      rfl
    · simp only [Function.update_of_ne hui] at hx
      exact h.heads u x rest hx
  · have hle := h.rounds x hx
    show x.round ≤ (Function.update o.enrolments id _ x.user).length
    by_cases hui : x.user = id
    · rw [hui, Function.update_self, List.length_cons]
      rw [hui] at hle
      omega
    · rw [Function.update_of_ne hui]
      exact hle
  · by_cases hui : u = id
    · subst hui
      refine ⟨enrolled o w p op u, o.enrolments u, Function.update_self _ _ _, ?_⟩
      rw [hself] at hcodes'
      have hstored : codes.zipWith S.hash salts = stored := Option.some.inj hcodes'
      have hspent : o.spent u (enrolled o w p op u).round = [] := h.spent_next u
      show stored = o.remaining S u (enrolled o w p op u)
      rw [History.remaining, hspent, ← hstored]
      simp [Entry.hashes, htake, hdrop]
    · rw [hother u hui] at hcodes'
      obtain ⟨x, rest, hx, hstored⟩ := h.stored u stored hcodes'
      exact ⟨x, rest, (Function.update_of_ne hui _ _).trans hx, hstored⟩
  · by_cases hqp : q = p
    · subst hqp
      simp only [Function.update_self, Option.some.injEq] at hq
      rw [← hq, htake, Function.update_self, (gs q).next_drawn, hdrawn, List.append_assoc]
      exact ⟨hcodes, _, rfl⟩
    · simp only [Function.update_of_ne hqp] at hq
      exact drawn_next h a b hq hq'

/-- The entry of an accepted code. -/
def acceptance (S : Settings) (o : History) (w : World) (p : Pid) (op : Op) (w' : World)
    (id : UserId) : Acceptance where
  call := p
  user := id
  round := (o.enrolments id).length
  token := presented op
  hash := ((History.stored w id).find? (S.compare (presented op))).getD ""
  before := History.stored w id
  after := History.stored w' id

theorem step_accept {β : Type} {a : Act β} {b : β} {id : UserId} {rest : List String}
    (hu : a.updated b = some (id, backupPatch rest)) :
    o.step S w p op a b w' =
      { o with
        journal := o.journal.step (fun _ => ()) p a b
        accepted := acceptance S o w p op w' id :: o.accepted
        acceptedBy := Function.update o.acceptedBy p (some (acceptance S o w p op w' id)) } := by
  unfold History.step
  rw [hu]
  rfl

/-- What an accepted code matches and leaves. -/
theorem acceptance_spec {id : UserId} {token hash : String} {codes : List String}
    (htoken : op.secondFactor = some token) (hstored : (factor w id).totpBackupCodes = some codes)
    (hfind : codes.find? (S.compare token) = some hash)
    (hself : factor w' id = patched (backupPatch (codes.filter fun code => code != hash))
      (factor w id)) :
    (acceptance S o w p op w' id).token = token ∧ (acceptance S o w p op w' id).hash = hash ∧
      (acceptance S o w p op w' id).before = codes ∧
      (acceptance S o w p op w' id).after = codes.filter fun code => code != hash := by
  have hbefore : History.stored w id = codes := by
    show (factor w id).totpBackupCodes.getD [] = codes
    rw [hstored]
    rfl
  refine ⟨presented_of_secondFactor htoken, ?_, hbefore, ?_⟩
  · show ((History.stored w id).find? (S.compare (presented op))).getD "" = hash
    rw [hbefore, presented_of_secondFactor htoken, hfind]
    rfl
  · show (factor w' id).totpBackupCodes.getD [] = _
    rw [hself]
    rfl

/-- One more accepted code takes its hash off what remains. -/
theorem remaining_cons {x : Acceptance} {u : UserId} {y : Entry} (o' : History)
    (ho' : o'.accepted = x :: o.accepted) :
    o'.remaining S u y = if x.user = u ∧ x.round = y.round
      then (o.remaining S u y).filter fun hash => hash != x.hash else o.remaining S u y := by
  have hspent : o'.spent u y.round = if x.user = u ∧ x.round = y.round
      then x.hash :: o.spent u y.round else o.spent u y.round := by
    unfold History.spent
    rw [ho', List.filter_cons]
    simp only [decide_eq_true_eq]
    split <;> rfl
  unfold History.remaining
  rw [hspent]
  split
  next =>
    rw [List.filter_filter]
    congr 1
    funext hash
    simp only [List.mem_cons, not_or, Bool.decide_and]
    by_cases heq : hash = x.hash <;> simp [heq]
  next => rfl

theorem Base.accept (h : Base S w o gs) {β : Type} {a : Act β} {b : β} {id : UserId}
    {token hash : String} {codes : List String} (htoken : op.secondFactor = some token)
    (hstored : (factor w id).totpBackupCodes = some codes)
    (hfind : codes.find? (S.compare token) = some hash)
    (hu : a.updated b = some (id, backupPatch (codes.filter fun code => code != hash)))
    (hself : factor w' id = patched (backupPatch (codes.filter fun code => code != hash))
      (factor w id))
    (hother : ∀ u, u ≠ id → factor w' u = factor w u) :
    Base S w' (o.step S w p op a b w') (Function.update gs p ((gs p).next a b)) := by
  rw [step_accept hu]
  obtain ⟨-, hhash, -, -⟩ := acceptance_spec (o := o) (p := p) htoken hstored hfind hself
  refine ⟨h.journal.step (fun _ => ()) a b, h.heads, fun x hx => ?_, fun u stored hstored' => ?_,
    fun q x hq hop => drawn_next h a b hq hop⟩
  · rcases List.mem_cons.mp hx with rfl | hx
    · exact le_rfl
    · exact h.rounds x hx
  · have hremaining := fun y => remaining_cons (S := S) (o := o) (u := u) (y := y)
      { o with
        journal := o.journal.step (fun _ => ()) p a b
        accepted := acceptance S o w p op w' id :: o.accepted
        acceptedBy := Function.update o.acceptedBy p (some (acceptance S o w p op w' id)) } rfl
    by_cases hui : u = id
    · subst hui
      obtain ⟨y, rest, hy, hcodes⟩ := h.stored u codes hstored
      refine ⟨y, rest, hy, ?_⟩
      rw [hself] at hstored'
      have hleft : codes.filter (fun code => code != hash) = stored := Option.some.inj hstored'
      have hround : (acceptance S o w p op w' u).round = y.round := by
        show (o.enrolments u).length = y.round
        rw [h.heads u y rest hy, hy, List.length_cons]
      rw [hremaining y, if_pos ⟨rfl, hround⟩, hhash, ← hcodes, hleft]
    · rw [hother u hui] at hstored'
      obtain ⟨y, rest, hy, hcodes⟩ := h.stored u stored hstored'
      refine ⟨y, rest, hy, ?_⟩
      rw [hremaining y, if_neg fun hc => hui hc.1.symm, hcodes]

theorem Base.step {β : Type} {a : Act β} {b : β} (hB : Booked w gs) (h : Base S w o gs)
    (hop : (gs p).op = some op) (ha : (gs p).allow S op a) (hx : exec S p a e w = some (b, w')) :
    Base S w' (o.step S w p op a b w') (Function.update gs p ((gs p).next a b)) := by
  rcases factor_step hB ha hx with ⟨hsame, hleaves⟩ | ⟨id, set, hu, -, hshape, hself, hother⟩
  · exact h.silent (fun id set hs => (hleaves id set hs).silent) fun u => Or.inl (by rw [hsame u])
  · -- a column of another user, or the column of the patch
    have hcodes : ∀ u, u ≠ id →
        (factor w' u).totpBackupCodes = (factor w u).totpBackupCodes := by
      intro u hui
      rw [hother u hui]
    have hsilent : Silent set → ∀ id' set', a.updated b = some (id', set') → Silent set' := by
      intro hset id' set' hs
      rw [hu] at hs
      obtain ⟨-, rfl⟩ := Prod.mk.inj (Option.some.inj hs)
      exact hset
    cases hshape with
    | setup =>
        refine h.silent (hsilent ⟨nofun, rfl⟩) fun u => ?_
        by_cases hui : u = id
        · subst hui
          rw [hself]
          exact Or.inl rfl
        · exact Or.inl (hcodes u hui)
    | confirm _ _ _ _ hdrawn hlen _ => exact h.enrol hop hu hdrawn hlen hself hother
    | removal =>
        refine h.silent (hsilent ⟨nofun, rfl⟩) fun u => ?_
        by_cases hui : u = id
        · subst hui
          rw [hself]
          exact Or.inr rfl
        · exact Or.inl (hcodes u hui)
    | backup htoken hstored hfind => exact h.accept htoken hstored hfind hu hself hother

theorem Base.opened (h : Base S w o gs) (op : Op) :
    Base S w (o.opened p) (Function.update gs p (.fresh op)) := by
  refine ⟨h.journal.opened op, h.heads, h.rounds, h.stored, fun q x hq hop => ?_⟩
  by_cases hqp : q = p
  · subst hqp
    simp [History.opened] at hq
  · rw [Function.update_of_ne hqp] at hop ⊢
    exact h.enrolledBy q x (by simpa [History.opened, hqp] using hq) hop

theorem factor_ambient (hx : ambient e w = some w') (u : UserId) : factor w' u = factor w u := by
  unfold factor
  rw [ambient_creds hx]

theorem Base.ambient (h : Base S w o gs) (hx : ambient e w = some w') : Base S w' o gs := by
  refine ⟨h.journal, h.heads, h.rounds, fun u codes hu => ?_, h.enrolledBy⟩
  rw [factor_ambient hx] at hu
  exact h.stored u codes hu

theorem Base.reboot (h : Base S w o gs) (hx : reboot e w = some w') (alive : Pid → Bool) :
    Base S w' o fun p => if alive p then (gs p).settle else .idle := by
  cases hx
  refine ⟨h.journal.settled alive, h.heads, h.rounds, h.stored, fun q x hq hop => ?_⟩
  cases halive : alive q with
  | true =>
      simp only [halive, if_true] at hop ⊢
      exact h.enrolledBy q x hq hop
  | false =>
      simp only [halive] at hop
      cases hop

/-- A database in which nobody has enrolled. -/
def Unenrolled (d : Db) : Prop :=
  ∀ u user, d.users.get u = some user → user.totpEnabled = false ∧ user.totpBackupCodes = none

theorem Unenrolled.factor {d : Db} (h : Unenrolled d) (clock : Timestamp) (u : UserId) :
    (factor (World.boot d clock) u).totpEnabled = false ∧
      (factor (World.boot d clock) u).totpBackupCodes = none := by
  show (d.creds u).totpEnabled = false ∧ (d.creds u).totpBackupCodes = none
  cases hget : d.users.get u with
  | none =>
      have hnot : ¬ d.has u := by
        rw [Db.has, hget]
        simp
      rw [Db.creds_of_not_has hnot]
      exact ⟨rfl, rfl⟩
  | some user =>
      rw [Db.creds_of_get hget]
      exact h u user hget

theorem Base.boot {d : Db} (h : Unenrolled d) (clock : Timestamp) :
    Base S (World.boot d clock) .blank fun _ => .idle := by
  refine ⟨.idle _, nofun, fun x hx => absurd hx List.not_mem_nil, fun u codes hu => ?_, nofun⟩
  rw [(h.factor clock u).2] at hu
  cases hu

/-! ## §4. Without the races, the row stays whole. -/

/-- The call of the enrolment verified its code against the secret. -/
def Entry.Verified (S : Settings) (x : Entry) (secret : String) : Prop :=
  x.secret = some secret ∧ ∃ t, S.verifySync (S.decrypt secret) x.token t = true

/-- An enabled second factor is that of its last enrolment, which enabled it. -/
def Whole (S : Settings) (w : World) (o : History) : Prop :=
  ∀ u, (factor w u).totpEnabled = true → ∃ x rest secret, o.enrolments u = x :: rest ∧
    x.enabling = true ∧ x.Verified S secret ∧ (factor w u).totpSecret = some secret ∧
    (factor w u).totpBackupCodes.isSome = true

/-- The secret a valid code was verified against. -/
theorem verified_of_totpAt {user : User} {token : String} {t : Timestamp} {x : Entry}
    (hx : x.secret = user.totpSecret) (htoken : x.token = token)
    (hsecret : (truthy user.totpSecret).isSome = true) (htotp : totpAt S user token t = true) :
    ∃ secret, user.totpSecret = some secret ∧ x.Verified S secret := by
  obtain ⟨secret, hs⟩ := Option.isSome_iff_exists.mp hsecret
  obtain ⟨hs, -⟩ := truthy_eq_some hs
  refine ⟨secret, hs, hx.trans hs, t, ?_⟩
  unfold totpAt at htotp
  rw [Bool.and_eq_true, hs] at htotp
  rw [htoken]
  exact htotp.2

theorem Whole.step {β : Type} {a : Act β} {b : β} (hB : Booked w gs) (h : Base S w o gs)
    (hW : Whole S w o) (hop : (gs p).op = some op) (ha : (gs p).allow S op a)
    (hg : ∀ id set, patching a = some (id, set) → calm o w p id set = true)
    (hx : exec S p a e w = some (b, w')) : Whole S w' (o.step S w p op a b w') := by
  -- the second factors of the other users, under the same enrolments
  have hkeep : ∀ {o' : History} {u : UserId}, factor w' u = factor w u →
      o'.enrolments u = o.enrolments u → (factor w' u).totpEnabled = true →
      ∃ x rest secret, o'.enrolments u = x :: rest ∧ x.enabling = true ∧ x.Verified S secret ∧
        (factor w' u).totpSecret = some secret ∧ (factor w' u).totpBackupCodes.isSome = true := by
    intro o' u hsame hlist henabled
    rw [hsame] at henabled ⊢
    rw [hlist]
    exact hW u henabled
  intro u henabled
  rcases factor_step hB ha hx with ⟨hsame, hleaves⟩ | ⟨id, set, hu, hpatch, hshape, hself, hother⟩
  · rw [step_silent fun id set hs => (hleaves id set hs).silent]
    exact hkeep (hsame u) rfl henabled
  · have hcalm := hg id set hpatch
    cases hshape with
    | setup =>
        have hsilent : ∀ id' set', a.updated b = some (id', set') → Silent set' := by
          intro id' set' hs
          rw [hu] at hs
          obtain ⟨-, rfl⟩ := Prod.mk.inj (Option.some.inj hs)
          exact ⟨nofun, rfl⟩
        rw [step_silent hsilent]
        by_cases hui : u = id
        · -- a secret is written only while the second factor is off
          subst hui
          rw [hself] at henabled
          have hoff : (w.db.creds u).totpEnabled = false := by
            simpa [calm, setupPatch] using hcalm
          have hoff : (factor w u).totpEnabled = false := hoff
          have hon : (factor w u).totpEnabled = true := henabled
          rw [hoff] at hon
          cases hon
        · exact hkeep (hother u hui) rfl henabled
    | @confirm token user t codes salts hread hid hsecret htotp hdrawn hcodes hsalts =>
        rw [step_enrol hu]
        by_cases hui : u = id
        · subst hui
          have hlast : o.journal.last p = some user :=
            (h.journal p (by rw [hop]; rfl)).2 user hread
          have hcalm : (w.db.creds u).totpEnabled = false ∧
              (w.db.creds u).totpSecret = user.totpSecret := by
            simpa [calm, enrolPatch, hlast] using hcalm
          obtain ⟨secret, hs, hverified⟩ := verified_of_totpAt
            (x := enrolled o w p (.confirm2FA u token) u) (by simp [enrolled, hlast]) rfl
            hsecret htotp
          refine ⟨_, _, secret, Function.update_self _ _ _, ?_, hverified, ?_, ?_⟩
          · simp [enrolled, hcalm.1]
          · rw [hself]
            exact hcalm.2.trans hs
          · rw [hself]
            rfl
        · exact hkeep (hother u hui) (Function.update_of_ne hui _ _) henabled
    | removal =>
        have hsilent : ∀ id' set', a.updated b = some (id', set') → Silent set' := by
          intro id' set' hs
          rw [hu] at hs
          obtain ⟨-, rfl⟩ := Prod.mk.inj (Option.some.inj hs)
          exact ⟨nofun, rfl⟩
        rw [step_silent hsilent]
        by_cases hui : u = id
        · subst hui
          rw [hself] at henabled
          cases henabled
        · exact hkeep (hother u hui) rfl henabled
    | backup htoken hstored hfind =>
        rw [step_accept hu]
        by_cases hui : u = id
        · subst hui
          rw [hself] at henabled
          obtain ⟨x, rest, secret, hx', henabling, hverified, hs, -⟩ := hW u henabled
          refine ⟨x, rest, secret, hx', henabling, hverified, ?_, ?_⟩
          · rw [hself]
            exact hs
          · rw [hself]
            rfl
        · exact hkeep (hother u hui) rfl henabled

/-- **The row of every user stays whole in every run without the races.** -/
theorem whole_run {d : Db} (hd : Unenrolled d) {clock : Timestamp} {c : Conf} {o : History}
    (h : (system S).Reach (steady S) (Config.init (World.boot d clock)) .blank c o) :
    ∃ gs, Booked c.world gs ∧ (Base S c.world o gs ∧ Whole S c.world o) ∧
      System.Tracks (scribe S) .idle (Closed S) Broken c gs := by
  refine noted_run (fun w o gs => Base S w o gs ∧ Whole S w o)
    (fun {w o gs p op} hB hI hidle _ => ⟨hI.1.opened op, hI.2⟩)
    (fun {w o gs p op β a e b w'} hB hI hop ha _ hg hx => ⟨hI.1.step hB hop ha hx, ?_⟩)
    (fun {w o gs e w'} hB hI hx => ⟨hI.1.ambient hx, fun u hu => ?_⟩)
    (fun {w o gs e w'} alive hB hI hx => ⟨hI.1.reboot (e := e) hx alive, fun u hu => ?_⟩)
    ⟨Base.boot hd clock, fun u hu => ?_⟩ h
  · refine hI.2.step hB hI.1 hop ha (fun id set hp => ?_) hx
    have hg : (match patching a with
      | some (id, set) => calm o w p id set
      | none => true) = true := hg
    rw [hp] at hg
    exact hg
  · rw [factor_ambient hx] at hu ⊢
    exact hI.2 u hu
  · cases hx
    exact hI.2 u hu
  · rw [(hd.factor clock u).1] at hu
    cases hu

/-- **AN ENABLED SECOND FACTOR IS THE ONE THAT WAS CONFIRMED**, in every run in
which no secret and no enrolment is written over an enabled second factor and
every enrolment finds the secret its call has read: its secret is the one
against which the enabling `confirm2FA` verified its code, and its backup codes
are the hashes of the codes of that call without the accepted ones.  A
`confirm2FA` returns the codes it enrolled. -/
theorem enrolment_holds (S : Settings) (d : Db) (hd : Unenrolled d) (clock : Timestamp) (c : Conf)
    (o : History)
    (h : (system S).Reach (steady S) (Config.init (World.boot d clock)) .blank c o) :
    (∀ u user, c.world.db.users.get u = some user → user.totpEnabled = true →
      ∃ x secret, o.enabler u = some x ∧ x.Verified S secret ∧ user.totpSecret = some secret ∧
        user.totpBackupCodes = some (o.remaining S u x)) ∧
      ∀ p u token codes x, c.returned p (.confirm2FA u token) (.texts codes) →
        o.enrolledBy p = some x → x.codes = codes := by
  obtain ⟨gs, -, ⟨hbase, hwhole⟩, hT⟩ := whole_run hd h
  constructor
  · intro u user hget henabled
    have hfactor : factor c.world u =
        ⟨user.totpSecret, user.totpEnabled, user.totpBackupCodes⟩ := by
      unfold factor
      rw [Db.creds_of_get hget]
      rfl
    obtain ⟨x, rest, secret, hx, henabling, hverified, hs, hsome⟩ :=
      hwhole u (by rw [hfactor]; exact henabled)
    rw [hfactor] at hs hsome
    obtain ⟨codes, hcodes⟩ := Option.isSome_iff_exists.mp hsome
    obtain ⟨x', rest', hx', hremaining⟩ := hbase.stored u codes (by rw [hfactor]; exact hcodes)
    rw [hx] at hx'
    obtain ⟨rfl, -⟩ := List.cons.inj hx'
    refine ⟨x, secret, ?_, hverified, hs, ?_⟩
    · rw [History.enabler, hx, List.find?_cons_of_pos henabling]
    · rw [← hremaining]
      exact hcodes
  · intro p u token codes x hreturned hby
    obtain ⟨htold, hop⟩ := hT.returned hreturned
    obtain ⟨hlen, rest, hdrawn⟩ := hbase.enrolledBy p x hby (by rw [hop]; rfl)
    have htold : codes = (gs p).drawn.take 8 := htold
    rw [htold, hdrawn, ← hlen, List.take_left]

/-! ## §5. Every backup code is accepted once. -/

/-- No hash belongs to two entries. -/
theorem eq_of_mem_hashes {l : List Entry} (h : (l.flatMap (Entry.hashes S)).Nodup) {x y : Entry}
    (hx : x ∈ l) (hy : y ∈ l) {hash : String} (h₁ : hash ∈ x.hashes S) (h₂ : hash ∈ y.hashes S) :
    x = y := by
  by_contra hne
  have hsymm : Std.Symm (Function.onFun List.Disjoint (Entry.hashes S)) := ⟨fun _ _ h _ hy hx => h hx hy⟩
  exact (List.nodup_flatMap.mp h).2.forall hx hy hne h₁ h₂

/-- A code compares with its own hash only. -/
theorem Exclusive.eq {pairs : List (String × String)} (h : Exclusive S pairs)
    {code code' hash hash' : String} (h₁ : (code, hash) ∈ pairs) (h₂ : (code', hash') ∈ pairs)
    (hcompare : S.compare code hash' = true) : hash' = hash := by
  by_contra hne
  have hsymm : Std.Symm fun x y : String × String =>
      S.compare x.1 y.2 = false ∧ S.compare y.1 x.2 = false := ⟨fun _ _ h => h.symm⟩
  have hfalse := (h.forall h₁ h₂ fun heq => hne (Prod.mk.inj heq).2.symm).1
  rw [hfalse] at hcompare
  cases hcompare

/-- What holds where hashes are distinct and comparisons exact. -/
structure Single (S : Settings) (o : History) (gs : Pid → Notes) : Prop where
  sized : ∀ u, ∀ x ∈ o.enrolments u, x.codes.length = x.salts.length
  rounds : ∀ u, ∀ x ∈ o.enrolments u, x.round ≤ (o.enrolments u).length
  unique : ∀ u, ∀ x ∈ o.enrolments u, ∀ y ∈ o.enrolments u, x.round = y.round → x = y
  hashes : ∀ u, ((o.enrolments u).flatMap (Entry.hashes S)).Nodup
  exclusive : ∀ u, ∀ x ∈ o.enrolments u, Exclusive S (x.codes.zip (x.hashes S))
  accepted : ∀ y ∈ o.accepted, (∃ x ∈ o.enrolments y.user, x.round = y.round ∧
    y.hash ∈ x.hashes S) ∧ S.compare y.token y.hash = true ∧ y.hash ∈ y.before ∧
      y.after = y.before.filter fun hash => hash != y.hash
  nodup : (o.accepted.map fun y => (y.user, y.hash)).Nodup
  by_call : ∀ p op token, (gs p).op = some op → op.secondFactor = some token →
    ∀ u rest, (u, backupPatch rest) ∈ (gs p).done →
      ∃ y ∈ o.accepted, o.acceptedBy p = some y ∧ y.call = p ∧ y.token = token

/-- The accepted code of a call, after a step that accepts none. -/
theorem Single.by_call_next (h : Single S o gs) {o' : History}
    (ho : o'.accepted = o.accepted ∧ o'.acceptedBy = o.acceptedBy) {β : Type} {a : Act β} {b : β}
    (hno : ∀ id rest, a.updated b ≠ some (id, backupPatch rest)) (q : Pid) (op' : Op)
    (token : String) (hq : (Function.update gs p ((gs p).next a b) q).op = some op')
    (htoken : op'.secondFactor = some token) (u : UserId) (rest : List String)
    (hdone : (u, backupPatch rest) ∈ (Function.update gs p ((gs p).next a b) q).done) :
    ∃ y ∈ o'.accepted, o'.acceptedBy q = some y ∧ y.call = q ∧ y.token = token := by
  rw [ho.1, ho.2]
  by_cases hqp : q = p
  · subst hqp
    rw [Function.update_self] at hq hdone
    rw [(gs q).next_op] at hq
    rw [(gs q).next_done] at hdone
    rcases List.mem_append.mp hdone with hold | hnew
    · exact h.by_call q op' token hq htoken u rest hold
    · exact absurd (Option.mem_toList.mp hnew) (hno u rest)
  · rw [Function.update_of_ne hqp] at hq hdone
    exact h.by_call q op' token hq htoken u rest hdone

theorem Single.silent (h : Single S o gs) {β : Type} {a : Act β} {b : β}
    (hs : ∀ id set, a.updated b = some (id, set) → Silent set) :
    Single S (o.step S w p op a b w') (Function.update gs p ((gs p).next a b)) := by
  rw [step_silent hs]
  refine ⟨h.sized, h.rounds, h.unique, h.hashes, h.exclusive, h.accepted, h.nodup,
    h.by_call_next ⟨rfl, rfl⟩ fun id rest hu => ?_⟩
  have hfalse := (hs id _ hu).2
  cases hfalse

theorem Single.enrol (hbase : Base S w o gs) (h : Single S o gs) {β : Type} {a : Act β} {b : β}
    {id : UserId} {codes salts : List String} (hop : (gs p).op = some op)
    (hu : a.updated b = some (id, enrolPatch (codes.zipWith S.hash salts)))
    (hdrawn : (gs p).drawn = codes ++ salts) (hcodes : codes.length = 8)
    (hsalts : salts.length = 8)
    (hapart : apart S o p id (enrolPatch (codes.zipWith S.hash salts)) = true) :
    Single S (o.step S w p op a b w') (Function.update gs p ((gs p).next a b)) := by
  rw [step_enrol hu]
  have hjournal : o.journal.drawn p = codes ++ salts := by
    rw [← (hbase.journal p (by rw [hop]; rfl)).1, hdrawn]
  have htake : (enrolled o w p op id).codes = codes := by
    show (o.journal.drawn p).take 8 = codes
    rw [hjournal, ← hcodes, List.take_left]
  have hdrop : (enrolled o w p op id).salts = salts := by
    show (o.journal.drawn p).drop 8 = salts
    rw [hjournal, ← hcodes, List.drop_left]
  have hhashes : (enrolled o w p op id).hashes S = codes.zipWith S.hash salts := by
    rw [Entry.hashes, htake, hdrop]
  have hapart : (codes.zipWith S.hash salts ++ (o.enrolments id).flatMap (Entry.hashes S)).Nodup ∧
      Exclusive S (codes.zip (codes.zipWith S.hash salts)) := by
    have htake' : (o.journal.drawn p).take 8 = codes := htake
    simpa [apart, enrolPatch, htake'] using hapart
  -- the new entry, or an old one
  have hmem : ∀ {u : UserId} {x : Entry},
      x ∈ Function.update o.enrolments id (enrolled o w p op id :: o.enrolments id) u →
      (u = id ∧ x = enrolled o w p op id) ∨ x ∈ o.enrolments u := by
    intro u x hx
    by_cases hui : u = id
    · subst hui
      rw [Function.update_self] at hx
      exact (List.mem_cons.mp hx).imp (fun heq => ⟨rfl, heq⟩) fun h => h
    · rw [Function.update_of_ne hui] at hx
      exact Or.inr hx
  have hlength : ∀ u, (o.enrolments u).length ≤
      (Function.update o.enrolments id (enrolled o w p op id :: o.enrolments id) u).length := by
    intro u
    by_cases hui : u = id
    · rw [hui, Function.update_self, List.length_cons]
      omega
    · rw [Function.update_of_ne hui]
  refine ⟨fun u x hx => ?_, fun u x hx => ?_, fun u x hx y hy hround => ?_, fun u => ?_,
    fun u x hx => ?_, fun y hy => ?_, h.nodup, h.by_call_next ⟨rfl, rfl⟩ fun id' rest hu' => ?_⟩
  · rcases hmem hx with ⟨-, rfl⟩ | hx
    · rw [htake, hdrop, hcodes, hsalts]
    · exact h.sized u x hx
  · rcases hmem hx with ⟨rfl, rfl⟩ | hx
    · show (o.enrolments u).length + 1 ≤ (Function.update o.enrolments u _ u).length
      rw [Function.update_self, List.length_cons]
    · exact (h.rounds u x hx).trans (hlength u)
  · -- the round of the new entry is above every old one
    rcases hmem hx with ⟨hux, rfl⟩ | hx' <;> rcases hmem hy with ⟨huy, rfl⟩ | hy'
    · rfl
    · have hle := h.rounds u y hy'
      have hround : (o.enrolments id).length + 1 = y.round := hround
      rw [hux] at hle
      omega
    · have hle := h.rounds u x hx'
      have hround : x.round = (o.enrolments id).length + 1 := hround
      rw [huy] at hle
      omega
    · exact h.unique u x hx' y hy' hround
  · show ((Function.update o.enrolments id _ u).flatMap (Entry.hashes S)).Nodup
    by_cases hui : u = id
    · subst hui
      rw [Function.update_self, List.flatMap_cons, hhashes]
      exact hapart.1
    · rw [Function.update_of_ne hui]
      exact h.hashes u
  · rcases hmem hx with ⟨-, rfl⟩ | hx
    · rw [htake, hhashes]
      exact hapart.2
    · exact h.exclusive u x hx
  · obtain ⟨⟨x, hx, hround, hhash⟩, hrest⟩ := h.accepted y hy
    refine ⟨⟨x, ?_, hround, hhash⟩, hrest⟩
    show x ∈ Function.update o.enrolments id _ y.user
    by_cases hui : y.user = id
    · rw [hui, Function.update_self]
      rw [hui] at hx
      exact List.mem_cons_of_mem _ hx
    · rw [Function.update_of_ne hui]
      exact hx
  · rw [hu] at hu'
    cases hu'

theorem Single.accept (hbase : Base S w o gs) (h : Single S o gs) {β : Type} {a : Act β} {b : β}
    {id : UserId} {token hash : String} {codes : List String}
    (htoken : op.secondFactor = some token) (hop : (gs p).op = some op)
    (hstored : (factor w id).totpBackupCodes = some codes)
    (hfind : codes.find? (S.compare token) = some hash)
    (hu : a.updated b = some (id, backupPatch (codes.filter fun code => code != hash)))
    (hself : factor w' id = patched (backupPatch (codes.filter fun code => code != hash))
      (factor w id)) :
    Single S (o.step S w p op a b w') (Function.update gs p ((gs p).next a b)) := by
  rw [step_accept hu]
  obtain ⟨htok, hhash, hbefore, hafter⟩ :=
    acceptance_spec (o := o) (p := p) htoken hstored hfind hself
  obtain ⟨x, rest, hx, hcodes⟩ := hbase.stored id codes hstored
  have hxmem : x ∈ o.enrolments id := by
    rw [hx]
    exact List.mem_cons_self
  have hround : x.round = (o.enrolments id).length := by
    rw [hbase.heads id x rest hx, hx, List.length_cons]
  -- the matched hash is one of the last enrolment, and not yet spent
  have hremaining : hash ∈ o.remaining S id x := by
    rw [← hcodes]
    exact List.mem_of_find?_eq_some hfind
  obtain ⟨hin, hunspent⟩ := List.mem_filter.mp hremaining
  refine ⟨h.sized, h.rounds, h.unique, h.hashes, h.exclusive, fun y hy => ?_, ?_,
    fun q op' token' hq htoken' u left hdone => ?_⟩
  · rcases List.mem_cons.mp hy with rfl | hy
    · refine ⟨⟨x, hxmem, hround, by rw [hhash]; exact hin⟩, ?_, ?_, ?_⟩
      · rw [htok, hhash]
        exact List.find?_some hfind
      · rw [hhash, hbefore]
        exact List.mem_of_find?_eq_some hfind
      · rw [hafter, hbefore, hhash]
    · exact h.accepted y hy
  · rw [List.map_cons, List.nodup_cons]
    refine ⟨fun hmem => ?_, h.nodup⟩
    obtain ⟨y, hy, heq⟩ := List.mem_map.mp hmem
    obtain ⟨huser, hsame⟩ := Prod.mk.inj heq
    have huser : y.user = id := huser
    have hsame : y.hash = hash := hsame.trans hhash
    obtain ⟨⟨x', hx', hround', hin'⟩, -⟩ := h.accepted y hy
    rw [huser] at hx'
    rw [hsame] at hin'
    obtain rfl := eq_of_mem_hashes (h.hashes id) hxmem hx' hin hin'
    have hspent : hash ∈ o.spent id x.round := by
      refine List.mem_map.mpr ⟨y, List.mem_filter.mpr ⟨hy, ?_⟩, hsame⟩
      exact decide_eq_true ⟨huser, hround'.symm⟩
    exact of_decide_eq_true hunspent hspent
  · by_cases hqp : q = p
    · subst hqp
      rw [Function.update_self, (gs q).next_op, hop] at hq
      obtain rfl := Option.some.inj hq
      rw [htoken] at htoken'
      obtain rfl := Option.some.inj htoken'
      exact ⟨_, List.mem_cons_self, Function.update_self _ _ _, rfl, htok⟩
    · rw [Function.update_of_ne hqp] at hq hdone
      obtain ⟨y, hy, hby, hcall⟩ := h.by_call q op' token' hq htoken' u left hdone
      exact ⟨y, List.mem_cons_of_mem _ hy, (Function.update_of_ne hqp _ _).trans hby, hcall⟩

theorem Single.step {β : Type} {a : Act β} {b : β} (hB : Booked w gs) (hbase : Base S w o gs)
    (h : Single S o gs) (hop : (gs p).op = some op) (ha : (gs p).allow S op a)
    (hg : ∀ id set, patching a = some (id, set) → apart S o p id set = true)
    (hx : exec S p a e w = some (b, w')) :
    Single S (o.step S w p op a b w') (Function.update gs p ((gs p).next a b)) := by
  rcases factor_step hB ha hx with ⟨-, hleaves⟩ | ⟨id, set, hu, hpatch, hshape, hself, -⟩
  · exact h.silent fun id set hs => (hleaves id set hs).silent
  · have hsilent : Silent set → ∀ id' set', a.updated b = some (id', set') → Silent set' := by
      intro hset id' set' hs
      rw [hu] at hs
      obtain ⟨-, rfl⟩ := Prod.mk.inj (Option.some.inj hs)
      exact hset
    have hapart := hg id set hpatch
    cases hshape with
    | setup => exact h.silent (hsilent ⟨nofun, rfl⟩)
    | removal => exact h.silent (hsilent ⟨nofun, rfl⟩)
    | confirm _ _ _ _ hdrawn hcodes hsalts =>
        exact h.enrol hbase hop hu hdrawn hcodes hsalts hapart
    | backup htoken hstored hfind => exact h.accept hbase htoken hop hstored hfind hu hself

theorem Single.blank : Single S .blank fun _ => .idle := by
  refine ⟨fun u x hx => ?_, fun u x hx => ?_, fun u x hx => ?_, fun u => List.nodup_nil,
    fun u x hx => ?_, fun y hy => ?_, List.nodup_nil, fun p op token hop => ?_⟩
  · exact absurd hx List.not_mem_nil
  · exact absurd hx List.not_mem_nil
  · exact absurd hx List.not_mem_nil
  · exact absurd hx List.not_mem_nil
  · exact absurd hy List.not_mem_nil
  · cases hop

theorem Single.opened (h : Single S o gs) (op : Op) :
    Single S (o.opened p) (Function.update gs p (.fresh op)) := by
  refine ⟨h.sized, h.rounds, h.unique, h.hashes, h.exclusive, h.accepted, h.nodup,
    fun q op' token hq htoken u rest hdone => ?_⟩
  by_cases hqp : q = p
  · subst hqp
    rw [Function.update_self] at hdone
    exact absurd hdone List.not_mem_nil
  · rw [Function.update_of_ne hqp] at hq hdone
    obtain ⟨y, hy, hby, hcall⟩ := h.by_call q op' token hq htoken u rest hdone
    exact ⟨y, hy, (Function.update_of_ne hqp _ _).trans hby, hcall⟩

theorem Single.reboot (h : Single S o gs) (alive : Pid → Bool) :
    Single S o fun p => if alive p then (gs p).settle else .idle := by
  refine ⟨h.sized, h.rounds, h.unique, h.hashes, h.exclusive, h.accepted, h.nodup,
    fun q op' token hq htoken u rest hdone => ?_⟩
  cases halive : alive q with
  | true =>
      simp only [halive, if_true] at hq hdone
      exact h.by_call q op' token hq htoken u rest hdone
  | false =>
      simp only [halive] at hq
      cases hq

/-- **Every code is accepted once in every run with distinct hashes.** -/
theorem single_run {d : Db} (hd : Unenrolled d) {clock : Timestamp} {c : Conf} {o : History}
    (h : (system S).Reach (distinct S) (Config.init (World.boot d clock)) .blank c o) :
    ∃ gs, Booked c.world gs ∧ (Base S c.world o gs ∧ Single S o gs) ∧
      System.Tracks (scribe S) .idle (Closed S) Broken c gs := by
  refine noted_run (fun w o gs => Base S w o gs ∧ Single S o gs)
    (fun {w o gs p op} hB hI hidle _ => ⟨hI.1.opened op, hI.2.opened op⟩)
    (fun {w o gs p op β a e b w'} hB hI hop ha _ hg hx => ⟨hI.1.step hB hop ha hx, ?_⟩)
    (fun {w o gs e w'} hB hI hx => ⟨hI.1.ambient hx, hI.2⟩)
    (fun {w o gs e w'} alive hB hI hx => ⟨hI.1.reboot (e := e) hx alive, hI.2.reboot alive⟩)
    ⟨Base.boot hd clock, Single.blank⟩ h
  refine hI.2.step hB hI.1 hop ha (fun id set hp => ?_) hx
  have hg : (match patching a with
    | some (id, set) => apart S o p id set
    | none => true) = true := hg
  rw [hp] at hg
  exact hg

/-- A list without repetitions that holds one value only. -/
theorem length_le_one_of_nodup {α : Type} {l : List α} (h : l.Nodup) {y : α}
    (hy : ∀ x ∈ l, x = y) : l.length ≤ 1 := by
  match l with
  | [] => exact Nat.zero_le 1
  | [x] => exact le_rfl
  | x :: x' :: l =>
      have hx : x = y := hy x List.mem_cons_self
      have hx' : x' = y := hy x' (List.mem_cons_of_mem _ List.mem_cons_self)
      rw [hx, hx', List.nodup_cons] at h
      exact absurd List.mem_cons_self h.1

/-- A code of an enrolment has been accepted at most once. -/
theorem Single.once (h : Single S o gs) {u : UserId} {x : Entry} (hx : x ∈ o.enrolments u)
    {code : String} (hcode : code ∈ x.codes) :
    (o.accepted.filter fun y =>
      decide (y.user = u ∧ y.round = x.round ∧ y.token = code)).length ≤ 1 := by
  have hlen : (x.hashes S).length = x.codes.length := by
    simp [Entry.hashes, h.sized u x hx]
  -- the hash of the code, and of every acceptance of it
  obtain ⟨own, hown⟩ : ∃ own, (code, own) ∈ x.codes.zip (x.hashes S) := by
    obtain ⟨i, hi, hget⟩ := List.mem_iff_getElem.mp hcode
    have hi' : i < (x.codes.zip (x.hashes S)).length := by
      rw [List.length_zip, hlen, Nat.min_self]
      exact hi
    refine ⟨(x.hashes S)[i], ?_⟩
    have hmem := List.getElem_mem hi'
    rw [List.getElem_zip, hget] at hmem
    exact hmem
  have hsame : ∀ y ∈ o.accepted.filter (fun y =>
      decide (y.user = u ∧ y.round = x.round ∧ y.token = code)), (y.user, y.hash) = (u, own) := by
    intro y hy
    obtain ⟨hy, hcond⟩ := List.mem_filter.mp hy
    obtain ⟨huser, hround, htoken⟩ := of_decide_eq_true hcond
    obtain ⟨⟨x', hx', hround', hhash⟩, hcompare, -⟩ := h.accepted y hy
    rw [huser] at hx'
    obtain rfl := h.unique u x' hx' x hx (hround'.trans hround)
    obtain ⟨i, hi, hget⟩ := List.mem_iff_getElem.mp hhash
    have hi' : i < (x'.codes.zip (x'.hashes S)).length := by
      rw [List.length_zip, ← hlen, Nat.min_self]
      exact hi
    have hmem := List.getElem_mem hi'
    rw [List.getElem_zip, hget] at hmem
    rw [htoken] at hcompare
    rw [huser, (h.exclusive u x' hx).eq hown hmem hcompare]
  have hnodup : ((o.accepted.filter fun y =>
      decide (y.user = u ∧ y.round = x.round ∧ y.token = code)).map
        fun y => (y.user, y.hash)).Nodup := h.nodup.sublist (List.filter_sublist.map _)
  rw [← List.length_map (f := fun y : Acceptance => (y.user, y.hash))]
  refine length_le_one_of_nodup hnodup (y := (u, own)) fun z hz => ?_
  obtain ⟨y, hy, rfl⟩ := List.mem_map.mp hz
  exact hsame y hy

/-- An accepted hash is not stored any more. -/
theorem Single.gone (hbase : Base S w o gs) (h : Single S o gs) {y : Acceptance}
    (hy : y ∈ o.accepted) {codes : List String}
    (hcodes : (factor w y.user).totpBackupCodes = some codes) : y.hash ∉ codes := by
  obtain ⟨x, rest, hx, rfl⟩ := hbase.stored y.user codes hcodes
  intro hmem
  obtain ⟨hin, hunspent⟩ := List.mem_filter.mp hmem
  obtain ⟨⟨x', hx', hround', hin'⟩, -⟩ := h.accepted y hy
  have hxmem : x ∈ o.enrolments y.user := by
    rw [hx]
    exact List.mem_cons_self
  obtain rfl := eq_of_mem_hashes (h.hashes y.user) hxmem hx' hin hin'
  refine of_decide_eq_true hunspent (List.mem_map.mpr ⟨y, List.mem_filter.mpr ⟨hy, ?_⟩, rfl⟩)
  exact decide_eq_true ⟨rfl, hround'.symm⟩

/-- **BACKUP CODES ARE SINGLE-USE.**  In every run in which the hashes of the
enrolments of a user are distinct and each code compares only with its own
hash: every code of an enrolment is accepted at most once in it; an acceptance
takes exactly the matched hash off the stored list; an accepted hash is in no
stored list later; and a second factor that succeeds was a TOTP code or an
acceptance of the call's own. -/
theorem backup_codes_single_use (S : Settings) (d : Db) (hd : Unenrolled d) (clock : Timestamp)
    (c : Conf) (o : History)
    (h : (system S).Reach (distinct S) (Config.init (World.boot d clock)) .blank c o) :
    (∀ u, ∀ x ∈ o.enrolments u, ∀ code ∈ x.codes,
        (o.accepted.filter fun y =>
          decide (y.user = u ∧ y.round = x.round ∧ y.token = code)).length ≤ 1) ∧
      (∀ y ∈ o.accepted, S.compare y.token y.hash = true ∧ y.hash ∈ y.before ∧
        ∀ hash, hash ∈ y.after ↔ hash ∈ y.before ∧ hash ≠ y.hash) ∧
      (∀ y ∈ o.accepted, ∀ user codes, c.world.db.users.get y.user = some user →
        user.totpBackupCodes = some codes → y.hash ∉ codes) ∧
      ∀ p op r token, op.secondFactor = some token → c.returned p op r →
        (∃ user t, o.journal.last p = some user ∧ totpAt S user token t = true) ∨
          ∃ y ∈ o.accepted, o.acceptedBy p = some y ∧ y.call = p ∧ y.token = token := by
  obtain ⟨gs, -, ⟨hbase, hsingle⟩, hT⟩ := single_run hd h
  refine ⟨fun u x hx code hcode => hsingle.once hx hcode, fun y hy => ?_,
    fun y hy user codes hget hcodes => ?_, fun p op r token htoken hreturned => ?_⟩
  · obtain ⟨-, hcompare, hmem, hafter⟩ := hsingle.accepted y hy
    refine ⟨hcompare, hmem, fun hash => ?_⟩
    rw [hafter, List.mem_filter]
    simp
  · have hstored : (factor c.world y.user).totpBackupCodes = some codes := by
      show (c.world.db.creds y.user).totpBackupCodes = some codes
      rw [Db.creds_of_get hget]
      exact hcodes
    exact hsingle.gone hbase hy hstored
  · obtain ⟨htold, hop⟩ := hT.returned hreturned
    have haccepted : ∃ user, (gs p).read = some user ∧ Accepted S (gs p) user token := by
      cases op with
      | verify2FA bearer token' =>
          obtain rfl := Option.some.inj htoken
          obtain ⟨user, sub, fingerprint, exp, -, hread, -, -, haccepted⟩ := htold
          exact ⟨user, hread, haccepted⟩
      | disable2FA userId token' =>
          obtain rfl := Option.some.inj htoken
          obtain ⟨user, hread, -, haccepted⟩ := htold
          exact ⟨user, hread, haccepted⟩
      | _ => cases htoken
    obtain ⟨user, hread, ⟨t, -, htotp⟩ | ⟨codes, hash, -, -, hdone⟩⟩ := haccepted
    · exact Or.inl ⟨user, t, (hbase.journal p (by rw [hop]; rfl)).2 user hread, htotp⟩
    · exact Or.inr (hsingle.by_call p op token hop htoken _ _ hdone)

end Runs

/-! ## §6. Concrete runs. -/

/-- The backup codes of two enrolments, with the salts and the hashes. -/
def sampleCodes (second : Bool) : List (String × String × String) :=
  if second then
    [("73cf256d-dda1494c", "$2b$10$75yx8xm5MslfY5ubiheyE.",
      "$2b$10$75yx8xm5MslfY5ubiheyE.vzawDwenZRptmXEcWPZirnCBHms3VXO"),
    ("c7321cc0-76c468ae", "$2b$10$P4zDL/ak6J0kGODKdinZne",
      "$2b$10$P4zDL/ak6J0kGODKdinZneugM0wWJi6Ug6mYasi59I7YXpqFCVhOW"),
    ("62f28d1a-111b8aaa", "$2b$10$caBAg8WY1jzIRlNQb0prF.",
      "$2b$10$caBAg8WY1jzIRlNQb0prF.w.4vyPHQqKuhvsNFywvAgaPOM587pmm"),
    ("02cdf2af-0f552c94", "$2b$10$7.wy5yq1XoY1BaIMcAxYm.",
      "$2b$10$7.wy5yq1XoY1BaIMcAxYm.SeDmhIP/QH16YWlzSCWBtli1V0hloF."),
    ("fd42e044-2577c1ec", "$2b$10$B4HbQLXjjlAFbVV6q9rXxO",
      "$2b$10$B4HbQLXjjlAFbVV6q9rXxOjvhhWrCFjSzClhh960KWZzZd3dt9Ere"),
    ("4f91540c-e88e752f", "$2b$10$DFyuzX9k1gnneGEYG1.Lw.",
      "$2b$10$DFyuzX9k1gnneGEYG1.Lw.K8tLHbsXwY5m1pHy3Vfpn6U95o8BP5y"),
    ("205bc308-3a782ebb", "$2b$10$9jJBAciI05FhfwKVqlUr5e",
      "$2b$10$9jJBAciI05FhfwKVqlUr5eS/J4kbkoO244t55nUkGc4gc53vogNCC"),
    ("a82cb2cd-bb9fab2b", "$2b$10$rec8TNecj9iNOrjj5VfqRe",
      "$2b$10$rec8TNecj9iNOrjj5VfqReIiS/ps1n9V4cRTzOGRiy1GiCrqVs9o6")]
  else
    [("52e6b438-f2a74de4", "$2b$10$tYgjmUhBel31iEl2hpChY.",
      "$2b$10$tYgjmUhBel31iEl2hpChY.gzXUuqCokfPbKHEUJxis885xwYdkFti"),
    ("f9ebdacc-3898d190", "$2b$10$frL1spNxnyVmihA/2O76Ue",
      "$2b$10$frL1spNxnyVmihA/2O76Uec5adpoXmZoJLNT2.AaKXxDaVV3Whn4C"),
    ("3f98e277-cb5c7427", "$2b$10$xFkM/R5Kjp1vRt.1fjORSu",
      "$2b$10$xFkM/R5Kjp1vRt.1fjORSu8djZEhLh0kZhNJkK1acUHeUJ1MIiGNe"),
    ("9474031b-cc011cdd", "$2b$10$6ilI8ihN5KXSc7Tvo/hBKO",
      "$2b$10$6ilI8ihN5KXSc7Tvo/hBKOEisr5BemoR5i8Rxe82Oi8Wqg4.sytnq"),
    ("bd0561e6-3f63af83", "$2b$10$YY/kv5ZJr3J1TWDtkwtDD.",
      "$2b$10$YY/kv5ZJr3J1TWDtkwtDD.bexDtrjL7gohr9IRiqTMZTkYTEJSy7m"),
    ("7c26847f-d4c28c2e", "$2b$10$xHKas1VOqg6YYZYn9ZhyiO",
      "$2b$10$xHKas1VOqg6YYZYn9ZhyiOJxnyAfS6kvLe/eog/Xp7tBuJVd1PsYi"),
    ("70ccec31-298cb3a5", "$2b$10$oRgnatmUdjAWtGSU8po.7u",
      "$2b$10$oRgnatmUdjAWtGSU8po.7u.j1WGPCVSUGlZ/wgR8qQVrpSNG/G162"),
    ("7bdc968b-4fd58dbe", "$2b$10$ksnRH9ucAUsdMlHUvTCQCO",
      "$2b$10$ksnRH9ucAUsdMlHUvTCQCOdknF41h1ehhtwhaVK/9rwWudcghs4hu")]

/-- bcrypt on these codes; a fixed TOTP secret at one time step. -/
def sampleTotp : Settings :=
  { sampleSettings with
    compare := fun data encrypted =>
      (sampleCodes false ++ sampleCodes true).any fun x => x.1 == data && x.2.2 == encrypted
    hash := fun data salt =>
      (((sampleCodes false ++ sampleCodes true).find? fun x => x.1 == data && x.2.1 == salt).map
        fun x => x.2.2).getD data
    verifySync := fun secret token t =>
      (secret == "JBSWY3DPEHPK3PXP" && token == "324550"
        || secret == "GEZDGNBVGY3TQOJQ" && token == "017492") && t / 30000 == 56666666 }

/-- A user who has called `setup2FA`. -/
def sampleDb : Db :=
  { Accounts.sampleDb with
    users := ⟨[{ sampleAccount 3 "steve@example.com" "steve" .user with
      totpSecret := some "JBSWY3DPEHPK3PXP" }], by decide⟩ }

theorem sampleDb_unenrolled : Unenrolled sampleDb := by
  intro u user hget
  obtain ⟨hmem, -⟩ := Table.get_eq_some.mp hget
  rw [List.mem_singleton.mp hmem]
  exact ⟨rfl, rfl⟩

/-- Call `p` of `confirm2FA` up to its UPDATE. -/
def confirms (p : Pid) (token : String) (second : Bool) : List (Event Env Op) :=
  [.invoke p (.confirm2FA 3 token), .step p {}, .step p {}]
    ++ (sampleCodes second).map (fun x => .step p { text := x.1 })
    ++ (sampleCodes second).map fun x => .step p { text := x.2.1 }

/-- Call `p` of `verify2FA` with the first backup code, up to its UPDATE. -/
def usesBackup (p : Pid) : List (Event Env Op) :=
  [.invoke p (.verify2FA (.signed ⟨.preAuth 3 none, 1700000300⟩) "52e6b438-f2a74de4"),
    .step p {}, .step p {}, .step p {}, .step p {}, .step p {}]

/-- An enrolment; then two calls race with one backup code, and the first wins. -/
def oneCodeTwice : List (Event Env Op) :=
  confirms 1 "324550" false ++ ([.step 1 {}] : List (Event Env Op)) ++ usesBackup 2 ++ usesBackup 4
    ++ ([.step 2 {}, .step 4 {}, .step 2 {}, .step 2 { text := jti₁ }, .step 2 {}, .step 2 {},
      .step 2 {}, .step 2 {}, .step 4 {}] : List (Event Env Op))

theorem oneCodeTwice_enrolled :
    ∃ c o user, (system sampleTotp).Reach (steady sampleTotp)
        (Config.init (World.boot sampleDb 1700000000000)) .blank c o ∧
      c.world.db.users.get 3 = some user ∧ user.totpEnabled = true ∧
      ∃ x secret, o.enabler 3 = some x ∧ x.Verified sampleTotp secret ∧
        user.totpSecret = some secret ∧
        user.totpBackupCodes = some (o.remaining sampleTotp 3 x) := by
  obtain ⟨c, o, hreach, ht⟩ := System.Reach.of_replay (S := system sampleTotp)
    (V := steady sampleTotp) (World.boot sampleDb 1700000000000) .blank oneCodeTwice
    (fun c _ => (c.world.db.users.get 3).any fun user => user.totpEnabled) (by decide +kernel)
  obtain ⟨user, hget, henabled⟩ := (Option.any_eq_true _ _).mp ht
  exact ⟨c, o, user, hreach, hget, henabled,
    (enrolment_holds sampleTotp sampleDb sampleDb_unenrolled _ c o hreach).1 3 user hget henabled⟩

theorem oneCodeTwice_accepted_once :
    ∃ c o, (system sampleTotp).Reach (distinct sampleTotp)
        (Config.init (World.boot sampleDb 1700000000000)) .blank c o ∧
      (c.result 2).isSome = true ∧ (c.failure 4).isSome = true ∧ o.accepted.length = 1 ∧
      ∀ y ∈ o.accepted, y.hash ∈ y.before ∧
        ∀ hash, hash ∈ y.after ↔ hash ∈ y.before ∧ hash ≠ y.hash := by
  obtain ⟨c, o, hreach, ht⟩ := System.Reach.of_replay (S := system sampleTotp)
    (V := distinct sampleTotp) (World.boot sampleDb 1700000000000) .blank oneCodeTwice
    (fun c o => (c.result 2).isSome && ((c.failure 4).isSome && decide (o.accepted.length = 1)))
    (by decide +kernel)
  simp only [Bool.and_eq_true, decide_eq_true_eq] at ht
  refine ⟨c, o, hreach, ht.1, ht.2.1, ht.2.2, fun y hy => ?_⟩
  exact ((backup_codes_single_use sampleTotp sampleDb sampleDb_unenrolled _ c o hreach).2.1 y hy).2

/-- `setup2FA` reads the row before `confirm2FA` enables it and writes later. -/
def setupRacesConfirm : List (Event Env Op) :=
  ([.invoke 2 (.setup2FA 3), .step 2 {}, .step 2 { text := "GEZDGNBVGY3TQOJQ" }, .step 2 {}] :
    List (Event Env Op))
    ++ confirms 1 "324550" false ++ ([.step 1 {}, .step 2 {}] : List (Event Env Op))

/-- `removeTwoFactor` reads an enabled row; the user disables it and enrols
again; the removal falls between the check of the new code and its UPDATE. -/
def removalRacesConfirm : List (Event Env Op) :=
  confirms 1 "324550" false ++ ([.step 1 {}, .invoke 2 (.removeTwoFactor 3), .step 2 {},
      .invoke 3 (.disable2FA 3 "324550"), .step 3 {}, .step 3 {}, .step 3 {},
      .invoke 4 (.setup2FA 3), .step 4 {}, .step 4 { text := "GEZDGNBVGY3TQOJQ" }, .step 4 {},
      .step 4 {}] : List (Event Env Op))
    ++ confirms 5 "017492" true ++ ([.step 2 {}, .step 5 {}] : List (Event Env Op))

/-- Two calls of `confirm2FA` read the row before either enables it. -/
def twoConfirms : List (Event Env Op) :=
  confirms 1 "324550" false ++ confirms 2 "324550" true ++ [.step 1 {}, .step 2 {}]

/-- With the races an enabled second factor has another secret than the one
that was confirmed, or none, or the backup codes of another call. -/
theorem races_tear_row :
    (∃ c o user x, (system sampleTotp).Reach (enrolling sampleTotp)
        (Config.init (World.boot sampleDb 1700000000000)) .blank c o ∧
        c.world.db.users.get 3 = some user ∧ user.totpEnabled = true ∧ o.enabler 3 = some x ∧
        user.totpSecret ≠ x.secret) ∧
      (∃ c o user, (system sampleTotp).Reach (enrolling sampleTotp)
        (Config.init (World.boot sampleDb 1700000000000)) .blank c o ∧
        c.world.db.users.get 3 = some user ∧ user.totpEnabled = true ∧ user.totpSecret = none) ∧
      ∃ c o user x, (system sampleTotp).Reach (enrolling sampleTotp)
        (Config.init (World.boot sampleDb 1700000000000)) .blank c o ∧
        c.world.db.users.get 3 = some user ∧ user.totpEnabled = true ∧ o.enabler 3 = some x ∧
        user.totpBackupCodes ≠ some (o.remaining sampleTotp 3 x) := by
  refine ⟨?_, ?_, ?_⟩
  · obtain ⟨c, o, hreach, ht⟩ := System.Reach.of_replay (S := system sampleTotp)
      (V := enrolling sampleTotp) (World.boot sampleDb 1700000000000) .blank setupRacesConfirm
      (fun c o => (c.world.db.users.get 3).any fun user : User => (o.enabler 3).any fun x : Entry =>
        user.totpEnabled && decide (user.totpSecret ≠ x.secret)) (by decide +kernel)
    obtain ⟨user, hget, ht⟩ := (Option.any_eq_true _ _).mp ht
    obtain ⟨x, hx, ht⟩ := (Option.any_eq_true _ _).mp ht
    rw [Bool.and_eq_true, decide_eq_true_eq] at ht
    exact ⟨c, o, user, x, hreach, hget, ht.1, hx, ht.2⟩
  · obtain ⟨c, o, hreach, ht⟩ := System.Reach.of_replay (S := system sampleTotp)
      (V := enrolling sampleTotp) (World.boot sampleDb 1700000000000) .blank removalRacesConfirm
      (fun c _ => (c.world.db.users.get 3).any fun user : User =>
        user.totpEnabled && decide (user.totpSecret = none)) (by decide +kernel)
    obtain ⟨user, hget, ht⟩ := (Option.any_eq_true _ _).mp ht
    rw [Bool.and_eq_true, decide_eq_true_eq] at ht
    exact ⟨c, o, user, hreach, hget, ht.1, ht.2⟩
  · obtain ⟨c, o, hreach, ht⟩ := System.Reach.of_replay (S := system sampleTotp)
      (V := enrolling sampleTotp) (World.boot sampleDb 1700000000000) .blank twoConfirms
      (fun c o => (c.world.db.users.get 3).any fun user : User => (o.enabler 3).any fun x : Entry =>
        user.totpEnabled && decide (user.totpBackupCodes ≠ some (o.remaining sampleTotp 3 x)))
      (by decide +kernel)
    obtain ⟨user, hget, ht⟩ := (Option.any_eq_true _ _).mp ht
    obtain ⟨x, hx, ht⟩ := (Option.any_eq_true _ _).mp ht
    rw [Bool.and_eq_true, decide_eq_true_eq] at ht
    exact ⟨c, o, user, x, hreach, hget, ht.1, hx, ht.2⟩

end Enrolment

end MinePanel.Accounts
