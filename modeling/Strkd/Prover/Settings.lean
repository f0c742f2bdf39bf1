import Strkd.Prover.Jobs

/-!
# The prover's settings

What the prover is configured with for each network, and which prover proves.
-/

namespace Strkd.Prover

/-- Proving config for one network. -/
structure NetworkConfig where
  rpcUrl : String := ""
  proverUrl : String := ""
  proverApiKey : String := ""
  strk20 : Strk20Config := {}
  deriving DecidableEq, Repr

/-- All networks the prover knows about, and the chosen backend. -/
structure ProverSettings where
  mainnet : NetworkConfig := {}
  testnet : NetworkConfig := {}
  /-- `native`, `remote`, or empty for the default. -/
  proverBackend : String := ""
  deriving DecidableEq, Repr

/-- The config of a network name; everything but the testnet's names is the mainnet. -/
def ProverSettings.forNetwork (s : ProverSettings) (net : String) : NetworkConfig :=
  if net = "testnet" ∨ net = "sepolia" then s.testnet else s.mainnet

end Strkd.Prover
