import KeePassKeyWin.AllowList
import KeePassKeyWin.AssertionResponse
import KeePassKeyWin.CborRoundTrip
import KeePassKeyWin.CborSkipping
import KeePassKeyWin.ComLifetime
import KeePassKeyWin.ConnectionSafety
import KeePassKeyWin.CounterSafety
import KeePassKeyWin.CredentialIds
import KeePassKeyWin.CtapDescriptions
import KeePassKeyWin.DerAcceptance
import KeePassKeyWin.DispatchOutcome
import KeePassKeyWin.DurableVault
import KeePassKeyWin.ErrorAtomicity
import KeePassKeyWin.ExcludeList
import KeePassKeyWin.GateSafety
import KeePassKeyWin.InertAlgorithms
import KeePassKeyWin.InstanceSafety
import KeePassKeyWin.KeySecrecy
import KeePassKeyWin.LockStatus
import KeePassKeyWin.MakeCredentialFlow
import KeePassKeyWin.MemoCells
import KeePassKeyWin.NonceReading
import KeePassKeyWin.NonceSafety
import KeePassKeyWin.OpSignKey
import KeePassKeyWin.OsListing
import KeePassKeyWin.PairedPrograms
import KeePassKeyWin.PipeListener
import KeePassKeyWin.PromptThreads
import KeePassKeyWin.ReconcileConvergence
import KeePassKeyWin.RegistrationRoundTrip
import KeePassKeyWin.RelyingPartyIsolation
import KeePassKeyWin.RelyingPartyScope
import KeePassKeyWin.ResponsePairing
import KeePassKeyWin.ResultFormats
import KeePassKeyWin.RetryRegistration
import KeePassKeyWin.SharedPipe
import KeePassKeyWin.SignedAssertion
import KeePassKeyWin.StaBlocking
import KeePassKeyWin.StoreRefinement
import KeePassKeyWin.TextStrings
import KeePassKeyWin.TransitionRuns
import KeePassKeyWin.UvSafety
import KeePassKeyWin.VaultService
import KeePassKeyWin.VaultWellFormedness
import KeePassKeyWin.WindowsRegistration
import KeePassKeyWin.WiredCalls
