import GpgFrontend.Function.CacheRestart
import GpgFrontend.Function.CacheThreads
import GpgFrontend.Function.ArchiveCleanup
import GpgFrontend.Function.ArchiveLimits
import GpgFrontend.Function.ArchivePacking
import GpgFrontend.Model.GFDataExchangerSafety
import GpgFrontend.OpenPGP.ChannelDescription
import GpgFrontend.OpenPGP.KeyDatabaseSessions
import GpgFrontend.OpenPGP.PassphraseRouting
import GpgFrontend.Utils.PackedKeyDatabases
import GpgFrontend.Utils.ProfileRelativePaths
import GpgFrontend.Profile.AdoptionSafety
import GpgFrontend.Profile.HeaderBinding
import GpgFrontend.Profile.MarkerDocument
import GpgFrontend.Profile.PackageCodecs
import GpgFrontend.Profile.MigrationLadder
import GpgFrontend.Profile.Rotation
import GpgFrontend.Profile.LoaderRecovery
import GpgFrontend.DataObject.GCQuarantine
import GpgFrontend.DataObject.GCGrace
import GpgFrontend.DataObject.ObjectReader
import GpgFrontend.Profile.MemoryAreaSafety
import GpgFrontend.Function.GFKeyDatabaseRoundTrip
import GpgFrontend.Rpgp.ListingAgreement
import GpgFrontend.Rpgp.AttributionExact
import GpgFrontend.Module.ModuleExternalizeExact
import GpgFrontend.Module.ModuleDispatchGate
import GpgFrontend.Module.ModuleExternalTrust
import GpgFrontend.Module.ModuleStartup
import GpgFrontend.Module.ModuleEventBusSafety
import GpgFrontend.Rpgp.PasswordCache
import GpgFrontend.Rpgp.SessionKeySearch
import GpgFrontend.Rpgp.StagedDirSafety
import GpgFrontend.UI.CommandWithdrawal
import GpgFrontend.UI.CodecStageOutcome
import GpgFrontend.Profile.ProfileStoragePlan
import GpgFrontend.Utils.UserIdCodec
import GpgFrontend.Utils.RecipientExpansion
import GpgFrontend.Module.GlobalRegisterTableThreads
import GpgFrontend.Profile.InheritedSettings
import GpgFrontend.Function.GFKeyDatabaseResolve
import GpgFrontend.Shell.KeyDatabaseSettingsBooks
import GpgFrontend.Rpgp.SignatureExpiry
import GpgFrontend.Rpgp.KeyExpiration
import GpgFrontend.Rpgp.RecipientChoice
import GpgFrontend.Rpgp.UserIdProperties
import GpgFrontend.Rpgp.PrimaryUserId
import GpgFrontend.Utils.ArmorEnvelope
import GpgFrontend.Rpgp.CleartextMessage
import GpgFrontend.Rpgp.ArmorRegions
import GpgFrontend.Rpgp.TarLinks
import GpgFrontend.Rpgp.PacketWalk
import GpgFrontend.Module.CanonicalFaithful
import GpgFrontend.Shell.RecipientRules
import GpgFrontend.Module.ManifestWellFormed
import GpgFrontend.Shell.VerifyVerdict
import GpgFrontend.UI.LuaFlatten
import GpgFrontend.Model.GFBufferSharing
import GpgFrontend.Mob.OperationQueueSafety
import GpgFrontend.Rpgp.MergeKeeps
