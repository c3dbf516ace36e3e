/-
  MinePanel.Lib.Serial
  ────────────────────
  **PROGRAMS THAT RUN ONE AFTER ANOTHER ON SHARED DATA.**

  `Advances` is what a program can come to when nothing else touches the data.
  `Serial` is a history of such runs, each started from the beginning of the
  program on the data the one before left, and each stopped anywhere.  Where a
  run was cut off, the data is cleaned up before the next.

    * `Advances` — one uninterrupted run;
    * `Serial` — runs one after another, with who ran and what was left of it;
    * `Turn` — a serial history with at most one run still going on.
-/
import MinePanel.Lib.System

namespace MinePanel.Lib

universe u

variable {A : Type → Type u} {ε α D E : Type}

/-- `p` on the data `d`, undisturbed, has come to `q` on the data `d'`. -/
inductive Advances (exec : ∀ β : Type, A β → E → D → Option (β × D)) (p : Prog A ε α) (d : D) :
    Prog A ε α → D → Prop where
  | start : Advances exec p d p d
  | step {β : Type} {a : A β} {k : β → Prog A ε α} {d' d'' : D} {e : E} {b : β}
      (h : Advances exec p d (.act a k) d') (hx : exec β a e d' = some (b, d'')) :
      Advances exec p d (k b) d''

/-- Runs of `p` one after another from the data `d₀`: the list says who ran, the
last first, and what was left of its program.  The data is cleaned up after the
run of one that was cut off. -/
inductive Serial (exec : ∀ β : Type, A β → E → D → Option (β × D)) (abandon : D → D)
    (cutOff : Pid → Prop) (p : Prog A ε α) (d₀ : D) : List (Pid × Prog A ε α) → D → Prop where
  | start : Serial exec abandon cutOff p d₀ [] d₀
  | run {rs : List (Pid × Prog A ε α)} {d d' : D} {q : Prog A ε α}
      (h : Serial exec abandon cutOff p d₀ rs d) (pid : Pid) (hrun : Advances exec p d q d') :
      Serial exec abandon cutOff p d₀ ((pid, q) :: rs) d'
  | cut {rs : List (Pid × Prog A ε α)} {d d' : D} {q : Prog A ε α}
      (h : Serial exec abandon cutOff p d₀ rs d) (pid : Pid) (hrun : Advances exec p d q d')
      (hcut : cutOff pid) : Serial exec abandon cutOff p d₀ ((pid, q) :: rs) (abandon d')

/-- A serial history `rs` up to the run of the one whose turn it is, which stands
at `rest`; with nobody's turn, all of it. -/
def Turn (exec : ∀ β : Type, A β → E → D → Option (β × D)) (abandon : D → D)
    (cutOff : Pid → Prop) (p : Prog A ε α) (d₀ : D) (rs : List (Pid × Prog A ε α))
    (turn : Option (Pid × Prog A ε α)) (d : D) : Prop :=
  match turn with
  | none => Serial exec abandon cutOff p d₀ rs d
  | some (_, rest) => ∃ d', Serial exec abandon cutOff p d₀ rs d' ∧ Advances exec p d' rest d

section

variable {exec : ∀ β : Type, A β → E → D → Option (β × D)} {abandon : D → D}
  {cutOff cutOff' : Pid → Prop} {p rest : Prog A ε α} {d₀ d d' : D}
  {rs : List (Pid × Prog A ε α)} {turn : Option (Pid × Prog A ε α)} {pid : Pid}

/-- More may be cut off. -/
theorem Serial.mono (h : Serial exec abandon cutOff p d₀ rs d)
    (hmono : ∀ pid, cutOff pid → cutOff' pid) : Serial exec abandon cutOff' p d₀ rs d := by
  induction h with
  | start => exact .start
  | run _ pid hrun ih => exact ih.run pid hrun
  | cut _ pid hrun hcut ih => exact ih.cut pid hrun (hmono pid hcut)

theorem Turn.mono (h : Turn exec abandon cutOff p d₀ rs turn d)
    (hmono : ∀ pid, cutOff pid → cutOff' pid) : Turn exec abandon cutOff' p d₀ rs turn d := by
  cases turn with
  | none => exact Serial.mono h hmono
  | some r =>
      obtain ⟨d₁, hserial, hrun⟩ := h
      exact ⟨d₁, hserial.mono hmono, hrun⟩

/-- A turn begins. -/
theorem Turn.take (h : Turn exec abandon cutOff p d₀ rs none d) (pid : Pid) :
    Turn exec abandon cutOff p d₀ rs (some (pid, p)) d :=
  ⟨d, h, .start⟩

/-- The one whose turn it is goes on. -/
theorem Turn.step {β : Type} {a : A β} {k : β → Prog A ε α} {e : E} {b : β}
    (h : Turn exec abandon cutOff p d₀ rs (some (pid, .act a k)) d)
    (hx : exec β a e d = some (b, d')) :
    Turn exec abandon cutOff p d₀ rs (some (pid, k b)) d' := by
  obtain ⟨d₁, hserial, hrun⟩ := h
  exact ⟨d₁, hserial, hrun.step hx⟩

/-- A turn is over, wherever its run stands. -/
theorem Turn.drop (h : Turn exec abandon cutOff p d₀ rs (some (pid, rest)) d) :
    Turn exec abandon cutOff p d₀ ((pid, rest) :: rs) none d := by
  obtain ⟨d₁, hserial, hrun⟩ := h
  exact hserial.run pid hrun

/-- A turn is cut off, and the data cleaned up after it. -/
theorem Turn.cut (h : Turn exec abandon cutOff p d₀ rs (some (pid, rest)) d) (hcut : cutOff pid) :
    Turn exec abandon cutOff p d₀ ((pid, rest) :: rs) none (abandon d) := by
  obtain ⟨d₁, hserial, hrun⟩ := h
  exact hserial.cut pid hrun hcut

end

end MinePanel.Lib
