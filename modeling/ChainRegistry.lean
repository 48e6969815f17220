import ChainRegistry.Network.CanonicalChain
import ChainRegistry.Network.BodyBinding
import ChainRegistry.Network.MessageOrder
import ChainRegistry.Node.PackageQuorum
import ChainRegistry.Resolver.KeyBinding
import ChainRegistry.Node.SyncRestarts
import ChainRegistry.Contracts.ActiveCount
import ChainRegistry.Contracts.Multisig
import ChainRegistry.Contracts.PauseRequests
import ChainRegistry.Contracts.ProofBinding
import ChainRegistry.Contracts.ApprovalIntegrity
import ChainRegistry.Contracts.Groth16
import ChainRegistry.Network.FinalisedTxs
import ChainRegistry.Relayer.Interleavings
import ChainRegistry.Node.AdmissionAttestations
import ChainRegistry.Node.Anchoring
import ChainRegistry.Cli.ConcurrentInstalls
import ChainRegistry.ThresholdEncryption.Coordinator
import ChainRegistry.Contracts.ValidatorRewards
import ChainRegistry.Contracts.InsurancePayments
import ChainRegistry.Contracts.SlashingEvidence
import ChainRegistry.Contracts.ZkSlashingVerifier
import ChainRegistry.DbSync.SyncWorker
import ChainRegistry.Contracts.AdmissionFreshness
import ChainRegistry.Contracts.Reapplications
import ChainRegistry.Contracts.SlashPoolEpochs
import ChainRegistry.Contracts.PinRecords
import ChainRegistry.Contracts.AppealPayments
import ChainRegistry.Contracts.VotingPower
import ChainRegistry.Node.BallotOrder
import ChainRegistry.Node.MultiSig
import ChainRegistry.Node.RootBinding
import ChainRegistry.Node.LatestVersion
import ChainRegistry.ZkValidator.DoubleSign
import ChainRegistry.ZkValidator.PackageInputs
import ChainRegistry.Node.RateLimit
import ChainRegistry.Contracts.Vrf
import ChainRegistry.Validator.Risk
