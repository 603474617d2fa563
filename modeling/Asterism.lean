import Asterism.ChatHistory.Current
import Asterism.ControlPlane.Activity
import Asterism.ControlPlane.Dispatch
import Asterism.ControlPlane.EventFeed
import Asterism.ControlPlane.Installations
import Asterism.ControlPlane.Intake
import Asterism.ControlPlane.NodeAccess
import Asterism.ControlPlane.Numbering
import Asterism.ControlPlane.Passwords
import Asterism.ControlPlane.Rekeying
import Asterism.ControlPlane.Resubmission
import Asterism.ControlPlane.RunList
import Asterism.ControlPlane.Sessions
import Asterism.Node.Cancellation
import Asterism.Node.ControlUrl
import Asterism.Node.Convergence
import Asterism.Node.Credentials
import Asterism.Node.Identity
import Asterism.Node.Inbox
import Asterism.Node.LinkTargets
import Asterism.Node.Policy
import Asterism.Node.Provisioning
import Asterism.Node.Reconcile
import Asterism.Node.Sse
import Asterism.Node.Swap
import Asterism.Node.UpdateJournal
import Asterism.Replication
import Asterism.Workdesk.Stamped
