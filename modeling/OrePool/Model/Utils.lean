import OrePool.Model.Types

/-!
# Cutoffs

`get_cutoff` and `get_cutoff_with_risk` of `utils.rs`, with the chain clock they fetch as an
argument.
-/

namespace OrePool

/-- Seconds until submissions close, on the on-chain clock. -/
def getCutoff (proof : Proof) (bufferTime : UInt64) (unixTimestamp : Int64) : Int64 :=
  proof.lastHashAt + 60 - bufferTime.toInt64 - unixTimestamp

/-- The same with extra hash time. -/
def getCutoffWithRisk (proof : Proof) (bufferTime riskTime : UInt64) (unixTimestamp : Int64) :
    Int64 :=
  proof.lastHashAt + 60 + riskTime.toInt64 - bufferTime.toInt64 - unixTimestamp

/-- The choice both processors make between the two. -/
def Args.cutoff (args : Args) (proof : Proof) (unixTimestamp : Int64) : Int64 :=
  if 0 < args.riskTime then
    getCutoffWithRisk proof args.bufferTime args.riskTime unixTimestamp
  else
    getCutoff proof args.bufferTime unixTimestamp

end OrePool
