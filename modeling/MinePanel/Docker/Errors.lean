/-
  MinePanel.Docker.Errors
  ───────────────────────
  **THE DOCKER ERROR CLASSIFIER** (`src/docker/docker.service.ts`).

  A rejected Dockerode promise carries an optional transport `code` and an
  optional HTTP `statusCode`.  `handleDockerError` turns it into the exception
  the lifecycle code branches on; `handleDockerError_unavailable_iff` says
  exactly which errors come out as "outcome unknown".
-/
import MinePanel.Exception

namespace MinePanel.Docker

/-- What a failed Docker request rejects with: `DockerErrorCandidate`. -/
structure DockerError where
  code : Option String
  statusCode : Option Nat
  deriving Repr, DecidableEq

/-- `DAEMON_UNREACHABLE_CODES`. -/
def daemonUnreachableCodes : List String :=
  ["ECONNREFUSED", "ECONNRESET", "ENOENT", "ENOTFOUND", "EAI_AGAIN", "EPIPE", "ETIMEDOUT",
   "ECONNABORTED", "ENETUNREACH", "EHOSTUNREACH", "EACCES", "EPERM"]

/-- `isDaemonUnreachable`: no status, and a transport code of the list. -/
def isDaemonUnreachable (cause : DockerError) : Bool :=
  match cause.statusCode, cause.code with
  | none, some code => code ∈ daemonUnreachableCodes
  | _, _ => false

/-- `isStatusCode`. -/
def isStatusCode (cause : DockerError) (statusCode : Nat) : Bool :=
  cause.statusCode == some statusCode

/-- `handleDockerError`: the exception a failed request becomes. -/
def handleDockerError (cause : DockerError) (context : String) : Exn :=
  if isDaemonUnreachable cause then .serviceUnavailable "Docker daemon unreachable"
  else match cause.statusCode with
    | some 404 => .notFound s!"{context} not found"
    | some 409 => .conflict s!"{context} conflicts with existing state"
    | some 400 | some 406 | some 422 => .badRequest s!"{context} rejected by Docker"
    | some 502 | some 503 | some 504 => .serviceUnavailable "Docker daemon unreachable"
    | _ => .internalServerError s!"Docker operation failed: {context}"

namespace DockerError

/-- The daemon never answered: the request failed in transport. -/
def unanswered (cause : DockerError) : Bool := cause.statusCode.isNone

/-- A gateway in front of the daemon answered for it. -/
def gatewayStatus (cause : DockerError) : Bool :=
  cause.statusCode == some 502 || cause.statusCode == some 503 || cause.statusCode == some 504

end DockerError

/-! ## What the classifier says. -/

/-- **The unknown outcomes**: a request is reported as unavailable exactly when
it failed in transport with a LISTED code, or a gateway status came back. -/
theorem handleDockerError_unavailable_iff (cause : DockerError) (context : String) :
    (handleDockerError cause context).isServiceUnavailable = true ↔
      isDaemonUnreachable cause = true ∨ cause.gatewayStatus = true := by
  unfold handleDockerError
  by_cases hu : isDaemonUnreachable cause = true
  · simp [hu, Exn.isServiceUnavailable]
  · simp only [hu, Bool.false_eq_true, if_false, false_or]
    unfold DockerError.gatewayStatus
    split <;> simp_all [Exn.isServiceUnavailable]

/-- Only an answered 404 comes out as "not found". -/
theorem handleDockerError_notFound_iff (cause : DockerError) (context : String) :
    (handleDockerError cause context).isNotFound = true ↔ cause.statusCode = some 404 := by
  unfold handleDockerError
  by_cases hu : isDaemonUnreachable cause = true
  · have hn : cause.statusCode = none := by
      unfold isDaemonUnreachable at hu
      split at hu
      next h _ => exact h
      next => cases hu
    simp [hu, hn, Exn.isNotFound]
  · simp only [hu, Bool.false_eq_true, if_false]
    split <;> simp_all [Exn.isNotFound]

end MinePanel.Docker
