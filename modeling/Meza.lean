import Meza.Store.PrivacyToggle
import Meza.Keys.Concurrency
import Meza.Store.RoleNumbering
import Meza.Keys.History
import Meza.Keys.Access
import Meza.Chat.Atomicity
import Meza.Store.MessageSearch
import Meza.Chat.Confinement
import Meza.Chat.Dissolving
import Meza.Chat.Privacy
import Meza.Chat.BanExclusion
import Meza.Chat.InviteAccounting
import Meza.Gateway.Freshness
import Meza.Chat.Escalation
import Meza.Chat.Coherence
import Meza.Social.FriendRows
import Meza.Chat.Retraction
import Meza.Social.Isolation
import Meza.Social.DirectChannels
import Meza.Media.Availability
import Meza.Client.Decryption
import Meza.Client.Convergence
import Meza.Crypto.EnvelopeBinding
import Meza.Crypto.Agreement
import Meza.Client.SearchRemovals
import Meza.Chat.Acknowledging
import Meza.Chat.Syncing
import Meza.Chat.Reordering
import Meza.Store.SystemMessageStore
import Meza.Crypto.KeyMonitor
import Meza.Crypto.TabSync
import Meza.Auth.Revocation
import Meza.Auth.SingleUse
import Meza.Client.SpokeIsolation
import Meza.Auth.RecoveryTokens
import Meza.Auth.Assertions
import Meza.Notification.RecoveryPush
import Meza.Notification.Throttling
import Meza.Presence.Invisibility
import Meza.Reports.Queue
import Meza.Client.Tiling
import Meza.Chat.Quotas
import Meza.Chat.PinPages
import Meza.Media.ObjectKeys
import Meza.Fetch.AddressFilters
import Meza.Client.History
import Meza.Auth.Enumeration
import Meza.Notification.PushFailure
import Meza.Crypto.InviteKeys
import Meza.Auth.VerificationCache
import Meza.Client.MediaQueue
import Meza.Client.PermissionMasks
import Meza.Client.SearchCommits
import Meza.Client.TilingEdits
import Meza.Crypto.AesKeyCache
import Meza.Notification.Titles
import Meza.Gateway.ChannelEvents
import Meza.Gateway.Subjects
import Meza.Client.LocalSearch
import Meza.Client.Backfill
import Meza.Client.DeepLink
