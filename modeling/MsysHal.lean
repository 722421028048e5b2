import MsysHal.Spec.Active
import MsysHal.Spec.AffineText
import MsysHal.Spec.Attribute
import MsysHal.Spec.AutoMount
import MsysHal.Spec.Backlight
import MsysHal.Spec.Calibration
import MsysHal.Spec.Commands
import MsysHal.Spec.Credential
import MsysHal.Spec.Delivery
import MsysHal.Spec.Devices
import MsysHal.Spec.Discovery
import MsysHal.Spec.DisplaySession
import MsysHal.Spec.Documents
import MsysHal.Spec.Eir
import MsysHal.Spec.Enumeration
import MsysHal.Spec.Failover
import MsysHal.Spec.Inventory
import MsysHal.Spec.JsonStrings
import MsysHal.Spec.Line
import MsysHal.Spec.Linux
import MsysHal.Spec.MountPath
import MsysHal.Spec.Pin
import MsysHal.Spec.Power
import MsysHal.Spec.Privacy
import MsysHal.Spec.Provider
import MsysHal.Spec.Recovery
import MsysHal.Spec.Reload
import MsysHal.Spec.Replies
import MsysHal.Spec.Restart
import MsysHal.Spec.Revision
import MsysHal.Spec.Rfkill
import MsysHal.Spec.Saved
import MsysHal.Spec.SelectionFile
import MsysHal.Spec.SinkCuts
import MsysHal.Spec.Slug
import MsysHal.Spec.Snapshots
import MsysHal.Spec.StorageErrors
import MsysHal.Spec.Store
import MsysHal.Spec.Suppression
import MsysHal.Spec.Switch
import MsysHal.Spec.Tokens
