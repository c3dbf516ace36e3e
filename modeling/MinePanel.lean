import MinePanel.Servers.Ownership
import MinePanel.Servers.Settlement
import MinePanel.Servers.Delete
import MinePanel.Servers.Admission
import MinePanel.Servers.Discovery
import MinePanel.Servers.Mediation
import MinePanel.Servers.Provisioned
import MinePanel.Servers.Reconciliation
import MinePanel.Servers.Compensation
import MinePanel.Access.Protocol
import MinePanel.Admin.LastAdmin
import MinePanel.Admin.Grants
import MinePanel.Setup.Bootstrap
import MinePanel.Auth.Lockout
import MinePanel.Auth.Enrolment
import MinePanel.Auth.Recovery
import MinePanel.Auth.Temporary
import MinePanel.Gateway.Metrics
import MinePanel.Users.Identifiers
import MinePanel.Auth.Challenges
import MinePanel.Gateway.Cookies
import MinePanel.Auth.RefreshTokenTtl
import MinePanel.Auth.Usernames
import MinePanel.Db.Migration
import MinePanel.Docker.Paths
import MinePanel.Auth.Throttle
import MinePanel.Auth.BackupCodes
import MinePanel.Auth.Linking
import MinePanel.Lint.Termination
import MinePanel.Lint.Capture
import MinePanel.Auth.Bans
import MinePanel.Auth.Successors
import MinePanel.Auth.Provenance
import MinePanel.Admin.Standing
import MinePanel.Db.Exclusion
import MinePanel.Servers.Stranding
