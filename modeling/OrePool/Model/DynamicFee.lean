import Mathlib.Data.List.Infix
import Mathlib.Data.List.Sort
import Mathlib.Data.UInt
import OrePool.Model.Types

/-!
# `dynamic_fee`

The estimate of the priority fee in `dynamic_fee.rs`.  The host of the fee URL selects a strategy;
four of the five ask a service for a JSON document and read the fee out of it, the fifth works it
out from the fees of recent slots.  The service, its answers and the RPC node are arguments.

Floats are Lean's own, which are those of IEEE 754.  `Float.round` has no logical model, so the cast
`round() as usize` is written out.
-/

namespace OrePool

/-! ## JSON -/

/-- A number of a JSON document, by how it was read. -/
inductive Number
  | posInt (n : UInt64)
  | negInt (n : Int64)
  | float (x : Float)

/-- `serde_json::Value`. -/
inductive Value
  | null
  | bool (b : Bool)
  | number (n : Number)
  | string (s : String)
  | array (arr : List Value)
  | object (fields : List (String × Value))

/-- `value[key]`: null where there is no such field. -/
def Value.index (key : String) : Value → Value
  | .object fields => (fields.lookup key).getD .null
  | _ => .null

/-- `as_f64`. -/
def Value.asF64 : Value → Option Float
  | .number (.posInt n) => some n.toFloat
  | .number (.negInt n) => some n.toFloat
  | .number (.float x) => some x
  | _ => none

/-- `as_u64`. -/
def Value.asU64 : Value → Option UInt64
  | .number (.posInt n) => some n
  | _ => none

/-- `as_array`. -/
def Value.asArray : Value → Option (List Value)
  | .array arr => some arr
  | _ => none

/-! ## Strategies -/

def DEFAULT_PRIORITY_FEE : UInt64 := 10000

inductive FeeStrategy
  | helius
  | triton
  | LOCAL
  | alchemy
  | quiknode
  deriving DecidableEq

/-- `host.contains(pattern)`. -/
def hostContains (host pattern : String) : Bool := decide (pattern.toList <:+: host.toList)

/-- The strategy for the host of the fee URL. -/
def FeeStrategy.select (host : String) : FeeStrategy :=
  if hostContains host "helius-rpc.com" then .helius
  else if hostContains host "alchemy.com" then .alchemy
  else if hostContains host "quiknode.pro" then .quiknode
  else if hostContains host "rpcpool.com" then .triton
  else .LOCAL

/-- How the request for an estimate ends. -/
inductive HttpOutcome
  | sendFailed
  | notJson
  | json (response : Value)

/-- A row of `getRecentPrioritizationFees`. -/
structure RpcPrioritizationFee where
  slot : UInt64
  prioritizationFee : UInt64
  deriving DecidableEq

/-- What the surroundings answer: the fee service, and the RPC node when it is asked for recent
fees, `none` for its error. -/
structure FeeAnswers where
  http : HttpOutcome
  recent : Option (List RpcPrioritizationFee)

/-- The deserialiser, `serde_json::from_value::<Vec<RpcPrioritizationFee>>`, `none` where it
fails. -/
structure Serde where
  fromValue : Value → Option (List RpcPrioritizationFee)

/-- Why there is no estimate. -/
inductive FeeError
  /-- "Failed to parse priority fee response: {response}". -/
  | unparsed (response : Value)
  /-- "Please enable the Solana Priority Fee API add-on in your QuickNode account." -/
  | addOn
  /-- "Failed to parse priority fee response: {err}", for an error of the RPC node. -/
  | rpc
  /-- "Failed to parse priority fee response: No recent prioritization fees". -/
  | noRecentFees

/-- `ok_or_else`. -/
def okOr {ε α : Type} (error : ε) : Option α → Except ε α
  | some a => .ok a
  | none => .error error

/-! ## Fees of recent slots -/

/-- `chunks(size)`. -/
def chunks {α : Type} (size : ℕ) (l : List α) : List (List α) :=
  (List.range ((l.length + size - 1) / size)).map fun i => (l.drop (i * size)).take size

/-- A chunk is not empty, and is within the size. -/
lemma length_of_mem_chunks {α : Type} {size : ℕ} {l chunk : List α} (hsize : 0 < size)
    (h : chunk ∈ chunks size l) : 0 < chunk.length ∧ chunk.length ≤ size := by
  obtain ⟨i, hi, rfl⟩ := List.mem_map.mp h
  have hfirst : (i + 1) * size ≤ l.length + size - 1 :=
    (Nat.le_div_iff_mul_le hsize).mp (List.mem_range.mp hi)
  rw [Nat.succ_mul] at hfirst
  rw [List.length_take, List.length_drop]
  omega

/-- `round() as usize`: the nearest integer, a half going up, with the casts of what is negative or
no finite number. -/
def roundToUsize (x : Float) : ℕ :=
  match x.toModel.unpack with
  | .finite .positive mantissa exponent _ =>
      let half := 2 ^ ((-exponent).toNat - 1)
      min (2 ^ 64 - 1) <|
        if 0 ≤ exponent then mantissa * 2 ^ exponent.toNat
        else (mantissa + half) / 2 ^ (-exponent).toNat
  | .infinity .positive => 2 ^ 64 - 1
  | _ => 0

/-- `(p as f64 / 100.0 * len as f64).round() as usize`. -/
def percentileIndex (p : UInt8) (len : ℕ) : ℕ :=
  roundToUsize (p.toFloat / UInt64.toFloat 100 * len.toUInt64.toFloat)

/-- The percentiles that are worked out. -/
def PERCENTILES : List UInt8 := [10, 25, 50, 60, 70, 75, 80, 85, 90, 100]

/-- `calculate_percentiles`, with the computation of the index as an argument.  `none` is an index
past the end. -/
def calculatePercentiles (index : UInt8 → ℕ → ℕ) (fees : List UInt64) :
    Option (List (UInt8 × UInt64)) :=
  let sortedFees := fees.insertionSort (· ≤ ·)
  PERCENTILES.mapM fun p => (sortedFees[index p fees.length - 1]?).map fun fee => (p, fee)

/-- `local_dynamic_fee`.  The percentiles kept are those of the last chunk. -/
def localDynamicFee (index : UInt8 → ℕ → ℕ) (recent : Option (List RpcPrioritizationFee)) :
    Option (Except FeeError UInt64) :=
  match recent with
  | none => some (.error .rpc)
  | some [] => some (.error .noRecentFees)
  | some fees =>
      let sortedFees := fees.insertionSort fun a b => b.slot ≤ a.slot
      let percentiles := ((chunks 150 sortedFees).take 3).foldlM
        (fun _ chunk =>
          calculatePercentiles index (chunk.map RpcPrioritizationFee.prioritizationFee))
        []
      percentiles.map fun percentiles => .ok ((percentiles.lookup 75).getD 0)

/-! ## The estimate -/

/-- The fees an average is taken over: of the last twenty rows, the last first. -/
def lastTwenty (fees : List RpcPrioritizationFee) : List UInt64 :=
  (fees.reverse.take 20).map RpcPrioritizationFee.prioritizationFee

/-- `estimate_prioritization_fee_micro_lamports`, `none` for its panic. -/
def estimatePrioritizationFeeMicroLamports (fees : List RpcPrioritizationFee) : Option UInt64 :=
  if lastTwenty fees = [] then
    none
  else
    some ((lastTwenty fees).sum / (lastTwenty fees).length.toUInt64)

/-- The fees of a document from Alchemy, `none` for the panic of an entry without one. -/
def alchemyFees (arr : List Value) : Option (List UInt64) :=
  arr.mapM fun v => (v.index "prioritizationFee").asU64

/-- Their average in single precision, raised by a fifth. -/
def alchemyFee (fees : List UInt64) : UInt64 :=
  ((fees.sum.toFloat32 / fees.length.toUInt64.toFloat32).ceil * 1.2).toUInt64

/-- The document the strategy works on, `none` where the function returns early.  The local strategy
sends no request. -/
def FeeStrategy.response : FeeStrategy → HttpOutcome → Option Value
  | .LOCAL, _ => some .null
  | _, .json response => some response
  | _, .sendFailed => none
  | _, .notJson => none

/-- `calculated_fee`.  The outer `none` is a panic. -/
def FeeStrategy.calculatedFee (serde : Serde) (response : Value)
    (recent : Option (List RpcPrioritizationFee)) :
    FeeStrategy → Option (Except FeeError UInt64)
  | .helius =>
      let estimate := ((response.index "result").index "priorityFeeEstimate").asF64
      some (okOr (.unparsed response) (estimate.map Float.toUInt64))
  | .quiknode =>
      let estimate := (((response.index "result").index "per_compute_unit").index "medium").asF64
      some (okOr .addOn (estimate.map Float.toUInt64))
  | .alchemy =>
      match (response.index "result").asArray with
      | some arr => (alchemyFees arr).map fun fees => .ok (alchemyFee fees)
      | none => some (.error (.unparsed response))
  | .triton =>
      match serde.fromValue (response.index "result") with
      | some fees => (estimatePrioritizationFeeMicroLamports fees).map .ok
      | none => some (.error (.unparsed response))
  | .LOCAL => localDynamicFee percentileIndex recent

/-- `dynamic_fee`.  The outer `none` is a panic. -/
def dynamicFee (serde : Serde) (host : String) (answers : FeeAnswers)
    (priorityFeeCap : Option UInt64) : Option (Except FeeError UInt64) :=
  let strategy := FeeStrategy.select host
  match strategy.response answers.http with
  | none => some (.ok DEFAULT_PRIORITY_FEE)
  | some response =>
      (strategy.calculatedFee serde response answers.recent).map fun calculatedFee =>
        calculatedFee.map fun fee => priorityFeeCap.elim fee (min fee)

end OrePool
