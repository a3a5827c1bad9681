import AuraProtocol.Api.Handshake
import AuraProtocol.Attachment.Magic
import AuraProtocol.Attachment.Progress
import AuraProtocol.Crypto.PaddingMasks
import AuraProtocol.Crypto.Secrecy
import AuraProtocol.Group.Agreement
import AuraProtocol.Group.Exchange
import AuraProtocol.Group.Franking
import AuraProtocol.Group.SkippedKeys
import AuraProtocol.Group.Subtrees
import AuraProtocol.Handshake.Guarded
import AuraProtocol.Handshake.KeyRoles
import AuraProtocol.Identity.SealedReplay
import AuraProtocol.Relay.CallRuns
import AuraProtocol.Relay.Messages
import AuraProtocol.Session.Bounds
import AuraProtocol.Session.IdentityBinding
import AuraProtocol.Session.OneWay
import AuraProtocol.Voip.Rekeys
