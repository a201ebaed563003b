import Mathlib
import StakeCubeCoin.Primitives.Serialize
import StakeCubeCoin.Primitives.Transaction

namespace StakeCubeCoin.CoinJoin

open Primitives List

/-!
# Building a transaction

`CTransactionBuilder` of `coinjoin/util.cpp` splits an amount into outputs.  An output is added if
the amount covers it and the fee for the new size.  Amounts are not bounded.
-/

def CFeeRate.getFee (nSatoshisPerK : CAmount) (nSize : Nat) : CAmount :=
  let nFee := (nSatoshisPerK * nSize).tdiv 1000
  if nFee = 0 /\ nSize ≠ 0 then
    if 0 < nSatoshisPerK then 1 else if nSatoshisPerK < 0 then -1 else nFee
  else nFee

def getSizeOfCompactSizeDiff (nSizePrev nSizeNew : Nat) : Int :=
  getSizeOfCompactSize nSizeNew - getSizeOfCompactSize nSizePrev

def unsignedInt (value : Int) : Nat :=
  (value % 2 ^ 32).toNat

/-- What calls do not change.  The required rate is the larger one of those of the wallet and of the
relay. -/
structure CTransactionBuilder where
  nAmountInitial : CAmount
  nBytesBase : Int
  nBytesOutput : Int
  m_feerate : CAmount
  requiredRate : CAmount
  m_default_max_tx_fee : CAmount

/-- A call for a builder, or for the output of it at an index. -/
inductive BuilderCall where
  | addOutput (nAmountOutput : CAmount)
  | updateAmount (index : Nat) (nNewAmount : CAmount)

namespace CTransactionBuilder

variable (self : CTransactionBuilder) (vecOutputs : List CAmount)

def getFee (nBytes : Nat) : CAmount :=
  min (max (CFeeRate.getFee self.m_feerate nBytes) (CFeeRate.getFee self.requiredRate nBytes))
    self.m_default_max_tx_fee

def getBytesTotal : Nat :=
  unsignedInt (self.nBytesBase + vecOutputs.length * self.nBytesOutput +
    getSizeOfCompactSizeDiff 0 vecOutputs.length)

def getAmountLeft : CAmount :=
  self.nAmountInitial - vecOutputs.sum - self.getFee (self.getBytesTotal vecOutputs)

variable (nAmountOutput : CAmount)

def couldAddOutput : Bool :=
  if nAmountOutput < 0 then false
  else
    let nBytes := unsignedInt (self.getBytesTotal vecOutputs + self.nBytesOutput +
      getSizeOfCompactSizeDiff vecOutputs.length (vecOutputs.length + 1))
    0 <= self.nAmountInitial - (vecOutputs.sum + nAmountOutput) - self.getFee nBytes

def couldAddOutputs (vecOutputAmounts : List CAmount) : Bool :=
  if vecOutputAmounts.any (· < 0) then false
  else
    let nBytes := unsignedInt (self.getBytesTotal vecOutputs + self.nBytesOutput * vecOutputAmounts.length +
      getSizeOfCompactSizeDiff vecOutputs.length (vecOutputs.length + vecOutputAmounts.length))
    0 <= self.nAmountInitial - (vecOutputs.sum + vecOutputAmounts.sum) - self.getFee nBytes

def addOutput : Bool × List CAmount :=
  if self.couldAddOutput vecOutputs nAmountOutput then (true, vecOutputs ++ [nAmountOutput])
  else (false, vecOutputs)

def updateAmount (index : Nat) (nNewAmount : CAmount) : Bool × List CAmount :=
  match vecOutputs[index]? with
  | none => (false, vecOutputs)
  | some nAmount =>
    if nNewAmount <= 0 \/ self.getAmountLeft vecOutputs < nNewAmount - nAmount then (false, vecOutputs)
    else (true, vecOutputs.set index nNewAmount)

/-- Whether a call succeeds, and the outputs after it. -/
def execute : BuilderCall -> Bool × List CAmount
  | .addOutput nAmountOutput => self.addOutput vecOutputs nAmountOutput
  | .updateAmount index nNewAmount => self.updateAmount vecOutputs index nNewAmount

def addsAll (vecOutputs : List CAmount) : List CAmount -> Bool
  | [] => true
  | nAmountOutput :: rest =>
    (self.addOutput vecOutputs nAmountOutput).1 && addsAll (self.addOutput vecOutputs nAmountOutput).2 rest

/-- The size with a number of outputs does not overflow. -/
def Sized (count : Nat) : Prop :=
  0 <= self.nBytesBase /\ 0 < self.nBytesOutput /\
    self.nBytesBase + count * self.nBytesOutput + 8 < 2 ^ 31

/-- The sizes telescope: amounts can be added if nothing is overspent with all of them. -/
theorem couldAddOutputs_iff (amounts : List CAmount) :
    self.couldAddOutputs vecOutputs amounts = true <->
    (∀ amount ∈ amounts, 0 <= amount) /\ 0 <= self.getAmountLeft (vecOutputs ++ amounts) := by
  have nBytes : unsignedInt (self.getBytesTotal vecOutputs + self.nBytesOutput * amounts.length +
      getSizeOfCompactSizeDiff vecOutputs.length (vecOutputs.length + amounts.length)) =
        self.getBytesTotal (vecOutputs ++ amounts) := by
    unfold getBytesTotal unsignedInt getSizeOfCompactSizeDiff
    rw [Int.toNat_of_nonneg (Int.emod_nonneg _ (by decide)), add_assoc, Int.emod_add_emod, length_append]
    push_cast
    ring_nf
  rw [couldAddOutputs, nBytes, getAmountLeft]
  simp

theorem addOutput_eq : self.addOutput vecOutputs nAmountOutput =
    if self.couldAddOutputs vecOutputs [nAmountOutput] then (true, vecOutputs ++ [nAmountOutput])
    else (false, vecOutputs) := by
  simp [addOutput, couldAddOutput, couldAddOutputs]

/-- A call that succeeds leaves nothing overspent. -/
theorem getAmountLeft_execute {call : BuilderCall}
    (done : (self.execute vecOutputs call).1 = true) :
    0 <= self.getAmountLeft (self.execute vecOutputs call).2 := by
  cases call with
  | addOutput nAmountOutput =>
    simp only [execute, addOutput_eq] at done ⊢
    split at done
    · next could =>
      rw [if_pos could]
      exact ((self.couldAddOutputs_iff _ _).mp could).2
    · cases done
  | updateAmount index nNewAmount =>
    simp only [execute, updateAmount] at done ⊢
    split at done
    · cases done
    next nAmount found =>
    split at done
    · cases done
    next allowed =>
    rcases List.getElem?_eq_some_iff.mp found with ⟨inside, here⟩
    have sum : (vecOutputs.set index nNewAmount).sum = vecOutputs.sum - nAmount + nNewAmount := by
      rw [List.sum_set', dif_pos inside, here]
      ring
    unfold getAmountLeft getBytesTotal at *
    grind

variable {self} {vecOutputs}

/-- More outputs leave less, as long as the size does not overflow. -/
theorem getAmountLeft_append (monotone : Monotone self.getFee) {amounts : List CAmount}
    (sized : self.Sized (vecOutputs ++ amounts).length)
    (positive : ∀ amount ∈ amounts, 0 <= amount) :
    self.getAmountLeft (vecOutputs ++ amounts) <= self.getAmountLeft vecOutputs := by
  have bytes : self.getBytesTotal vecOutputs <= self.getBytesTotal (vecOutputs ++ amounts) := by
    unfold getBytesTotal unsignedInt getSizeOfCompactSizeDiff
    generalize size : (vecOutputs ++ amounts).length = count at *
    have less : vecOutputs.length <= count := by
      rw [<- size, length_append]
      exact Nat.le_add_right _ _
    rcases sized with ⟨base, output, total⟩
    have compact : getSizeOfCompactSize 0 <= getSizeOfCompactSize vecOutputs.length /\
        getSizeOfCompactSize vecOutputs.length <= getSizeOfCompactSize count /\
        getSizeOfCompactSize count <= getSizeOfCompactSize 0 + 8 := by
      unfold getSizeOfCompactSize
      split_ifs <;> omega
    have part := mul_le_mul_of_nonneg_right (Int.ofNat_le.mpr less) output.le
    have counted := mul_nonneg (Int.natCast_nonneg vecOutputs.length) output.le
    omega
  unfold getAmountLeft
  have sum := sum_nonneg positive
  have fee := monotone bytes
  grind

/-- If all amounts together fit, each fits when it is added. -/
theorem addsAll_iff (monotone : Monotone self.getFee) {amounts : List CAmount}
    (sized : self.Sized (vecOutputs ++ amounts).length) : self.addsAll vecOutputs amounts = true <->
      amounts = [] \/ self.couldAddOutputs vecOutputs amounts = true := by
  induction amounts generalizing vecOutputs with
  | nil => simp [addsAll]
  | cons amount rest ih =>
    rw [append_cons] at sized
    have later := ih sized
    rw [couldAddOutputs_iff] at later
    rw [couldAddOutputs_iff, append_cons, forall_mem_cons, addsAll, addOutput_eq]
    by_cases could : self.couldAddOutputs vecOutputs [amount] = true
    · rw [if_pos could]
      rw [couldAddOutputs_iff, forall_mem_cons] at could
      grind
    · rw [if_neg could]
      refine ⟨nofun, ?_⟩
      rintro (none | ⟨⟨positive, others⟩, left⟩)
      · cases none
      · have less := getAmountLeft_append monotone sized others
        exact absurd ((self.couldAddOutputs_iff _ _).mpr ⟨by simpa using positive, left.trans less⟩) could

theorem monotone_getFee (rate : 0 <= self.m_feerate) (required : 0 <= self.requiredRate) :
    Monotone self.getFee := by
  have single : ∀ {rate : CAmount}, 0 <= rate -> Monotone (CFeeRate.getFee rate) := by
    intro rate nonneg first second order
    have fees : rate * first / 1000 <= rate * second / 1000 :=
      Int.ediv_le_ediv (by decide) (mul_le_mul_of_nonneg_left (Int.ofNat_le.mpr order) nonneg)
    simp only [CFeeRate.getFee, Int.tdiv_eq_ediv_of_nonneg (mul_nonneg nonneg (Int.natCast_nonneg _))]
    grind
  intro first second order
  exact min_le_min_right _ (max_le_max (single rate order) (single required order))

/-- A call that succeeds never overspends, and amounts can be added together exactly if they can be
added one after the other, in any order. -/
theorem builder_never_overspends (self : CTransactionBuilder) (vecOutputs : List CAmount) :
    (0 <= self.m_feerate -> 0 <= self.requiredRate -> Monotone self.getFee) /\
    (∀ (calls : List BuilderCall) (call : BuilderCall),
      let before := calls.foldl (fun outputs call => (self.execute outputs call).2) vecOutputs
      (self.execute before call).1 = true -> 0 <= self.getAmountLeft (self.execute before call).2) /\
    (Monotone self.getFee -> ∀ amounts ordered : List CAmount, ordered ~ amounts ->
      self.Sized (vecOutputs ++ amounts).length -> (amounts ≠ [] \/ 0 <= self.getAmountLeft vecOutputs) ->
      (self.couldAddOutputs vecOutputs amounts = true <-> self.addsAll vecOutputs ordered = true)) := by
  refine ⟨monotone_getFee, fun calls call done => self.getAmountLeft_execute _ done, ?_⟩
  intro monotone amounts ordered order sized covered
  have reordered : self.couldAddOutputs vecOutputs amounts = true <->
    self.couldAddOutputs vecOutputs ordered = true := by
    simp only [couldAddOutputs_iff, getAmountLeft, getBytesTotal, sum_append, length_append,
      order.mem_iff, order.length_eq, order.sum_eq]
  rw [addsAll_iff monotone (by rwa [length_append, order.length_eq, <- length_append]), reordered]
  by_cases none : ordered = []
  · rw [none] at order
    rw [<- order.nil_eq] at covered
    simpa [none, couldAddOutputs_iff] using covered
  · simp [none]

/-- Two outputs that fit together fit in the other order. -/
theorem builder_adds_two : addsAll ⟨100000, 200, 34, 1000, 1000, 10000⟩ [] [20000,
    30000] = true := by
  have never := builder_never_overspends ⟨100000, 200, 34, 1000, 1000, 10000⟩ []
  exact (never.2.2 (never.1 (by decide) (by decide)) [30000, 20000] [20000, 30000] (.swap _ _ _)
    ⟨by decide, by decide, by decide⟩ (.inl (by decide))).mp (by decide +kernel)

/-- The amount does not even cover the fee, so nothing can be added, not even no output.  And with
sizes that wrap, two outputs can be added of which none can be added first. -/
theorem no_output_refused : couldAddOutputs ⟨100, 1000, 34, 1000, 1000, 10000⟩ [] [] = false /\
    addsAll ⟨100, 1000, 34, 1000, 1000, 10000⟩ [] [] = true /\
    couldAddOutputs ⟨2, 2, 2 ^ 31 - 1, 1000, 1000, 10000⟩ [] [1, 1] = true /\
    addsAll ⟨2, 2, 2 ^ 31 - 1, 1000, 1000, 10000⟩ [] [1, 1] = false := by
  decide +kernel

end CTransactionBuilder
end StakeCubeCoin.CoinJoin
