import Surety.Address.Derivation
import Surety.Bitmap.Bits
import Surety.Bitmap.ClaimBitmap
import Surety.Bitmap.Header
import Surety.Bond
import Surety.Bytes
import Surety.Config
import Surety.Config.File
import Surety.Curve.Edwards25519
import Surety.Curve.Signing
import Surety.Error
import Surety.Hash.Sha256
import Surety.Hash.Sha512
import Surety.Json.Basic
import Surety.Json.Reader
import Surety.Json.Writer
import Surety.Merkle.Level
import Surety.Merkle.Node
import Surety.Merkle.Proof
import Surety.Merkle.Record
import Surety.Merkle.Tree
import Surety.Number.Binary64
import Surety.Number.Decimal
import Surety.Number.Power
import Surety.Number.Shortest
import Surety.Positional
import Surety.Proofs.Address.Separation
import Surety.Proofs.Bitmap.Account
import Surety.Proofs.Bitmap.Bit
import Surety.Proofs.Bitmap.Marking
import Surety.Proofs.Bitmap.Size
import Surety.Proofs.Bitmap.Slices
import Surety.Proofs.Bitmap.Spare
import Surety.Proofs.Hash.Collision
import Surety.Proofs.Json.Text
import Surety.Proofs.Merkle.Binding
import Surety.Proofs.Merkle.Bounds
import Surety.Proofs.Merkle.Commitment
import Surety.Proofs.Merkle.Completeness
import Surety.Proofs.Merkle.Heights
import Surety.Proofs.Merkle.Layout
import Surety.Proofs.Merkle.Position
import Surety.Proofs.Merkle.Rounds
import Surety.Proofs.Merkle.SecondPreimage
import Surety.Proofs.Merkle.Sides
import Surety.Proofs.Merkle.Tampering
import Surety.Proofs.Record.RoundTrip
import Surety.Proofs.Settlement.Authenticity
import Surety.Proofs.Settlement.Backing
import Surety.Proofs.Settlement.Collateral
import Surety.Proofs.Settlement.Funding
import Surety.Proofs.Settlement.InPlace
import Surety.Proofs.Settlement.Ledger
import Surety.Proofs.Settlement.Loading
import Surety.Proofs.Settlement.Payable
import Surety.Proofs.Settlement.Phases
import Surety.Proofs.Settlement.Readmission
import Surety.Proofs.Settlement.Reload
import Surety.Proofs.Settlement.Room
import Surety.Proofs.Settlement.Sharing
import Surety.Proofs.Settlement.Splitting
import Surety.Proofs.Settlement.Step
import Surety.Proofs.Stake.Activation
import Surety.Proofs.Stake.Coherence
import Surety.Proofs.Stake.Consolidation
import Surety.Proofs.Stake.Coverage
import Surety.Proofs.Stake.Decoding
import Surety.Proofs.Stake.Grouping
import Surety.Proofs.Stake.Lifecycle
import Surety.Proofs.Stake.Merging
import Surety.Proofs.Stake.Nesting
import Surety.Proofs.Stake.Order
import Surety.Proofs.Stake.Ownership
import Surety.Proofs.Stake.Preference
import Surety.Proofs.Stake.Size
import Surety.Proofs.Text.Base58
import Surety.Proofs.Text.Hex
import Surety.Proofs.Update
import Surety.Proofs.Withdraw.Arrangement
import Surety.Proofs.Withdraw.Conservation
import Surety.Proofs.Withdraw.Progress
import Surety.Proofs.Withdraw.Ranking
import Surety.Proofs.Withdraw.Replay
import Surety.Proofs.Withdraw.Selection
import Surety.Record.Account
import Surety.Record.Bond
import Surety.Record.Config
import Surety.Record.Merkle
import Surety.Record.Row
import Surety.Record.Scalar
import Surety.Record.Settlement
import Surety.Record.Withdraw
import Surety.Settlement.Basic
import Surety.Settlement.Claims
import Surety.Settlement.Funding
import Surety.Settlement.Run
import Surety.Signer
import Surety.Stake.Account
import Surety.Stake.Basic
import Surety.Stake.Consolidation
import Surety.Stake.Delegation
import Surety.Stake.Encoding
import Surety.Stake.History
import Surety.Stake.Suitability
import Surety.Text.Base58
import Surety.Text.Digit
import Surety.Text.Hex
import Surety.Withdraw.Fulfillment
import Surety.Withdraw.Request
import Surety.Withdraw.Run
import Surety.Word
import Surety.Yaml.Cursor
import Surety.Yaml.Node
import Surety.Yaml.Number
import Surety.Yaml.Scalar
import Surety.Yaml.Token
