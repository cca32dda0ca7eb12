import TokenAuthority.Authenticator.Chain
import TokenAuthority.CommandLine.Run
import TokenAuthority.Host
import TokenAuthority.Machine
import TokenAuthority.Main
import TokenAuthority.Proofs.Json.Number
import TokenAuthority.Proofs.Json.Quoted
import TokenAuthority.Proofs.Text.Base64
import TokenAuthority.Proofs.Text.Split
import TokenAuthority.Proofs.Token.Contents
import TokenAuthority.Proofs.Token.RoundTrip
import TokenAuthority.Proofs.KeyRing.Ledger
import TokenAuthority.Proofs.KeyRing.Persistence
import TokenAuthority.Proofs.KeyRing.OwnKeys
import TokenAuthority.Proofs.Token.Spelling
import TokenAuthority.Proofs.Token.Verification
import TokenAuthority.Proofs.Authenticator.Run
import TokenAuthority.Proofs.Authenticator.Fate
import TokenAuthority.Proofs.Text.Base64Strict
import TokenAuthority.Proofs.Token.Unique
import TokenAuthority.Proofs.Authenticator.Restart
import TokenAuthority.Proofs.Authenticator.Usable
import TokenAuthority.Proofs.KeyRing.Queue
import TokenAuthority.Proofs.Authenticator.Issuance
import TokenAuthority.Proofs.KeyRing.Distinct
import TokenAuthority.Proofs.Authenticator.Verdict
import TokenAuthority.Proofs.Token.Expiry
import TokenAuthority.Proofs.KeyFile.Activation
import TokenAuthority.Proofs.KeyFile.Loading
import TokenAuthority.Proofs.KeyFile.Reloading
import TokenAuthority.Proofs.CommandLine.History
import TokenAuthority.Proofs.Authenticator.Lifetime
import TokenAuthority.Proofs.Authenticator.Refusal
import TokenAuthority.Proofs.KeyMaterial.Agreement
import TokenAuthority.Proofs.Token.Forms
import TokenAuthority.Proofs.Authenticator.Chain
import TokenAuthority.Proofs.KeyMaterial.FixedWidth
import TokenAuthority.Proofs.Files.TruePath
import TokenAuthority.Proofs.Files.Growth
import TokenAuthority.Proofs.Settings.TrueFolder
import TokenAuthority.Proofs.Settings.Overlay
import TokenAuthority.Proofs.Authenticator.Header
