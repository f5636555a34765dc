import BoxEngine.CloseAccounting
import BoxEngine.Lib.WeightedMean
import BoxEngine.OutstandingSound

/-!
# A close is the sum of its parts

Over the attempts a role's quantity and value are those of its priced fills; where every fill is priced the exit price
is their mean, and the gross is what they made.
-/

namespace BoxEngine

open Js

variable (fills : List ExitFill)

abbrev quantityOf (role : BoxLegRole) : ℚ :=
  WeightedMean.total ExitFill.role ExitFill.quantity fills role

abbrev valueOf (role : BoxLegRole) : ℚ :=
  WeightedMean.moment ExitFill.role ExitFill.quantity ExitFill.price fills role

abbrev meanPrice (role : BoxLegRole) : ℚ :=
  WeightedMean.mean ExitFill.role ExitFill.quantity ExitFill.price fills role

def sideSign (role : BoxLegRole) (direction : BoxDirection) : ℚ := if entrySideFor role direction = .buy then 1 else -1

structure SumOfParts (direction : BoxDirection) (entry opened : BoxLegRole → ℚ) (fills : List ExitFill) (attempts : ℕ)
    (booking : CloseBooking) : Prop where
  roles : booking.legs.map BoxLegEvaluation.role = boxLegRoles
  price : ∀ leg ∈ booking.legs, (∃ f ∈ fills, f.role = leg.role) →
    leg.price = some (.fin (round2 (meanPrice fills leg.role)))
  gross : ∃ g : ℚ, booking.grossPnl = .fin g ∧
    |g - (boxLegRoles.map fun role => sideSign role direction * (meanPrice fills role - entry role) * opened role).sum| ≤
      attempts / 200

namespace LeggingExitResult

variable {result : LeggingExitResult}

structure WellFormed (result : LeggingExitResult) : Prop where
  nodup : (result.legs.map BoxLegEvaluation.role).Nodup
  finite : ∀ leg ∈ result.legs, ∀ price ∈ leg.price, price.isFinite = true

theorem mem_closedLegs {leg : BoxLegEvaluation} :
    leg ∈ result.closedLegs ↔ leg ∈ result.legs ∧ .fin 0 < result.record.confirmed leg.role := by
  rw [closedLegs, List.mem_filter, decide_eq_true_eq]

theorem mem_fills {f : ExitFill} : f ∈ result.fills ↔ ∃ leg ∈ result.legs, .fin 0 < result.record.confirmed leg.role ∧
    ∃ price, leg.price = some price ∧ .fin 0 < price ∧
      f = ⟨leg.role, (result.record.confirmed leg.role).value, price.value⟩ := by
  simp only [fills, closedLegs, LeggingExitRecord.fill, BoxLegEvaluation.usablePrice, List.mem_filterMap, List.mem_filter,
    decide_eq_true_eq, Option.map_eq_some_iff, Option.filter_eq_some_iff]
  constructor
  · rintro ⟨leg, ⟨hleg, hclosed⟩, price, ⟨hprice, hpos⟩, rfl⟩
    exact ⟨leg, hleg, hclosed, price, hprice, hpos, rfl⟩
  · rintro ⟨leg, hleg, hclosed, price, hprice, hpos, rfl⟩
    exact ⟨leg, ⟨hleg, hclosed⟩, price, ⟨hprice, hpos⟩, rfl⟩

theorem WellFormed.nodup_closed (h : result.WellFormed) : (result.closedLegs.map BoxLegEvaluation.role).Nodup :=
  h.nodup.sublist ((List.filter_sublist ..).map _)

theorem WellFormed.nodup_fills (h : result.WellFormed) : (result.fills.map ExitFill.role).Nodup := by
  refine h.nodup_closed.sublist (Keyed.sublist_filterMap ?_)
  intro leg _ f hf
  obtain ⟨price, -, rfl⟩ := Option.map_eq_some_iff.mp hf
  rfl

end LeggingExitResult

/-! ## Banking -/

namespace MonitoredPosition

variable {pos : MonitoredPosition} {record : LeggingExitRecord}

theorem bank_untouched {role : BoxLegRole} : ∀ {legs : List BoxLegEvaluation} (banked : BankedFills),
    (∀ leg ∈ legs, leg.role = role → leg.price.filter (fun price => .fin 0 < price) = none) →
    (legs.foldl (BankedFills.bank pos record) banked).fillsByRole role = banked.fillsByRole role ∧
      (legs.foldl (BankedFills.bank pos record) banked).avgPriceByRole role = banked.avgPriceByRole role
  | [], _, _ => ⟨rfl, rfl⟩
  | leg :: legs, banked, h => by
    rw [List.foldl_cons]
    have hrest := bank_untouched (banked.bank pos record leg) fun other hmem => h other (.tail _ hmem)
    rw [hrest.1, hrest.2]
    unfold BankedFills.bank
    by_cases hrole : leg.role = role
    · rw [h leg (.head _) hrole]
      exact ⟨rfl, rfl⟩
    · cases leg.price.filter fun price => decide (.fin 0 < price) with
      | none => exact ⟨rfl, rfl⟩
      | some price => exact ⟨if_neg (Ne.symm hrole), if_neg (Ne.symm hrole)⟩

theorem bank_touched {leg : BoxLegEvaluation} {price : Number} (hprice : leg.price = some price) (hpos : .fin 0 < price) :
    ∀ {legs : List BoxLegEvaluation} (banked : BankedFills), (legs.map BoxLegEvaluation.role).Nodup → leg ∈ legs →
    (legs.foldl (BankedFills.bank pos record) banked).fillsByRole leg.role = some (record.confirmed leg.role) ∧
      (legs.foldl (BankedFills.bank pos record) banked).avgPriceByRole leg.role = some price
  | [], _, _, hmem => absurd hmem List.not_mem_nil
  | other :: legs, banked, hnodup, hmem => by
    rw [List.map_cons, List.nodup_cons] at hnodup
    rw [List.foldl_cons]
    rcases List.mem_cons.mp hmem with rfl | hmem
    · have hothers : ∀ other ∈ legs, other.role = leg.role →
          other.price.filter (fun price => .fin 0 < price) = none := by
        intro other hother hrole
        exact absurd (hrole ▸ List.mem_map_of_mem hother) hnodup.1
      have hrest := @bank_untouched pos record leg.role legs (banked.bank pos record leg) hothers
      rw [hrest.1, hrest.2]
      have hfilter : leg.price.filter (fun price => decide (.fin 0 < price)) = some price := by
        rw [hprice, Option.filter_some, if_pos (by simpa using hpos)]
      unfold BankedFills.bank
      rw [hfilter]
      exact ⟨if_pos rfl, if_pos rfl⟩
    · exact bank_touched hprice hpos _ hnodup.2 hmem

theorem bank_records {result : LeggingExitResult} (h : result.WellFormed) (hvalid : pos.invalidRole result.record = none)
    (hwhole : ∀ role, ∃ n : ℕ, pos.remaining role = .fin n) (role : BoxLegRole) :
    let banked := pos.bank result.record result.closedLegs
    (banked.fillsByRole role).getD (.fin 0) = .fin (quantityOf result.fills role) ∧
      ((banked.fillsByRole role).getD (.fin 0)).mul ((banked.avgPriceByRole role).getD (.fin 0)) =
        .fin (valueOf result.fills role) := by
  intro banked
  by_cases hfill : ∃ f ∈ result.fills, f.role = role
  · obtain ⟨f, hf, rfl⟩ := hfill
    have hfilter := Keyed.filter_of_mem h.nodup_fills hf
    obtain ⟨leg, hleg, hclosed, price, hprice, hpos, rfl⟩ := LeggingExitResult.mem_fills.mp hf
    obtain ⟨n, hn⟩ := hwhole leg.role
    obtain ⟨m, hm, -⟩ := confirmed_of_valid hvalid hn
    have hmem := LeggingExitResult.mem_closedLegs.mpr ⟨hleg, hclosed⟩
    have htouched := @bank_touched pos result.record leg price hprice hpos result.closedLegs
      ⟨pos.remaining, fun _ => none, fun _ => none, []⟩ h.nodup_closed hmem
    have hfinite := h.finite leg hleg price hprice
    cases price with
    | fin p =>
      have hq : banked.fillsByRole leg.role = some (.fin m) := hm ▸ htouched.1
      have hp : banked.avgPriceByRole leg.role = some (.fin p) := htouched.2
      rw [hq, hp]
      simp [WeightedMean.total, WeightedMean.moment, hfilter, hm, Number.mul_fin]
    | _ => cases hfinite
  · have hnone : ∀ leg ∈ result.closedLegs, leg.role = role →
        leg.price.filter (fun price => .fin 0 < price) = none := by
      intro leg hleg hrole
      obtain ⟨hleg, hclosed⟩ := LeggingExitResult.mem_closedLegs.mp hleg
      rw [Option.filter_eq_none_iff]
      intro price hprice hpos
      exact hfill ⟨_, LeggingExitResult.mem_fills.mpr
        ⟨leg, hleg, hclosed, price, hprice, of_decide_eq_true hpos, rfl⟩, hrole⟩
    have hfilter : (result.fills.filter fun f => f.role = role) = [] := by
      rw [List.filter_eq_nil_iff]
      intro f hf hrole
      exact hfill ⟨f, hf, of_decide_eq_true hrole⟩
    have huntouched := @bank_untouched pos result.record role result.closedLegs
      ⟨pos.remaining, fun _ => none, fun _ => none, []⟩ hnone
    have hq : banked.fillsByRole role = none := huntouched.1
    have hp : banked.avgPriceByRole role = none := huntouched.2
    rw [hq, hp]
    simp [WeightedMean.total, WeightedMean.moment, hfilter, Number.mul_fin]

theorem quantity_fills {result : LeggingExitResult} (h : result.WellFormed)
    (hvalid : pos.invalidRole result.record = none) (hwhole : ∀ role, ∃ n : ℕ, pos.remaining role = .fin n)
    (role : BoxLegRole) :
    quantityOf result.fills role = AcceptedExit.banked ⟨result.legs, result.record.fillsByRole⟩ role := by
  obtain ⟨n, hn⟩ := hwhole role
  obtain ⟨m, hm, -⟩ := confirmed_of_valid hvalid hn
  have hvalue : AcceptedExit.confirmed ⟨result.legs, result.record.fillsByRole⟩ role = m := congrArg Number.value hm
  unfold AcceptedExit.banked
  rw [hvalue]
  by_cases hfill : ∃ f ∈ result.fills, f.role = role
  · obtain ⟨f, hf, rfl⟩ := hfill
    have hfilter := Keyed.filter_of_mem h.nodup_fills hf
    obtain ⟨leg, hleg, hclosed, price, hprice, hpos, rfl⟩ := LeggingExitResult.mem_fills.mp hf
    rw [if_pos ⟨leg, hleg, rfl, by simp [BoxLegEvaluation.priced, hprice, hpos]⟩]
    simp [WeightedMean.total, hfilter, hm]
  · have hfilter : (result.fills.filter fun f => f.role = role) = [] := by
      rw [List.filter_eq_nil_iff]
      intro f hf hrole
      exact hfill ⟨f, hf, of_decide_eq_true hrole⟩
    have hzero : quantityOf result.fills role = 0 := by simp [WeightedMean.total, hfilter]
    rw [hzero]
    split
    · rename_i hpriced
      obtain ⟨leg, hleg, hrole, hpriced⟩ := hpriced
      obtain ⟨price, hprice⟩ := Option.isSome_iff_exists.mp hpriced
      obtain ⟨hprice, hpos⟩ := Option.filter_eq_some_iff.mp hprice
      by_contra hne
      have hclosed : .fin 0 < result.record.confirmed leg.role := by
        rw [hrole, hm, Number.fin_lt_fin]
        exact (Nat.cast_nonneg m).lt_of_ne hne
      exact hfill ⟨_, LeggingExitResult.mem_fills.mpr
        ⟨leg, hleg, hclosed, price, hprice, of_decide_eq_true hpos, rfl⟩, hrole⟩
    · rfl

end MonitoredPosition

/-! ## Gross -/

def ExitFill.gross (direction : BoxDirection) (entry : BoxLegRole → ℚ) (f : ExitFill) : ℚ :=
  sideSign f.role direction * (f.price - entry f.role) * f.quantity

def grossOf (direction : BoxDirection) (entry : BoxLegRole → ℚ) (fills : List ExitFill) : ℚ :=
  (fills.map (ExitFill.gross direction entry)).sum

namespace AccountedPosition

variable {p : AccountedPosition} {direction : BoxDirection} {entry : BoxLegRole → ℚ}

theorem perUnit_fin (hdirection : p.pos.position.entryDirection = direction)
    (hentry : ∀ role, p.entryPrice role = .fin (entry role)) (role : BoxLegRole) (price : ℚ) :
    p.perUnit role (.fin price) = .fin (sideSign role direction * (price - entry role)) := by
  unfold perUnit sideSign
  rw [hdirection, hentry]
  split
  · simp [Number.sub_fin]
  · simp [Number.sub_fin]

theorem addGross_foldl {result : LeggingExitResult} (h : result.WellFormed)
    (hdirection : p.pos.position.entryDirection = direction) (hentry : ∀ role, p.entryPrice role = .fin (entry role))
    (hconfirmed : ∀ role, ∃ m : ℕ, result.record.confirmed role = .fin m) :
    ∀ (legs : List BoxLegEvaluation) (g : ℚ), (∀ leg ∈ legs, leg ∈ result.legs) →
      legs.foldl (p.addGross result.record) (.fin g) =
        .fin (g + grossOf direction entry (legs.filterMap result.record.fill))
  | [], g, _ => by simp [grossOf]
  | leg :: legs, g, hlegs => by
    have hrest := fun g => addGross_foldl h hdirection hentry hconfirmed legs g
      fun other hmem => hlegs other (.tail _ hmem)
    rw [List.foldl_cons, List.filterMap_cons]
    cases hprice : leg.usablePrice with
    | none =>
      have hadd : p.addGross result.record (.fin g) leg = .fin g := by simp only [addGross, hprice]
      have hfill : result.record.fill leg = none := by rw [LeggingExitRecord.fill, hprice, Option.map_none]
      rw [hadd, hfill]
      exact hrest g
    | some price =>
      obtain ⟨m, hm⟩ := hconfirmed leg.role
      have hfinite := h.finite leg (hlegs leg (.head _)) price (Option.filter_eq_some_iff.mp hprice).1
      cases price with
      | fin price =>
        have hfill : result.record.fill leg = some ⟨leg.role, m, price⟩ := by
          rw [LeggingExitRecord.fill, hprice, hm]
          rfl
        have hadd : p.addGross result.record (.fin g) leg =
            .fin (g + ExitFill.gross direction entry ⟨leg.role, m, price⟩) := by
          simp only [addGross, hprice]
          rw [perUnit_fin hdirection hentry, hm, Number.mul_fin, Number.add_fin]
          rfl
        rw [hadd, hfill, hrest]
        simp [grossOf, add_assoc]
      | _ => cases hfinite

theorem attemptGross_eq {result : LeggingExitResult} (h : result.WellFormed)
    (hdirection : p.pos.position.entryDirection = direction) (hentry : ∀ role, p.entryPrice role = .fin (entry role))
    (hconfirmed : ∀ role, ∃ m : ℕ, result.record.confirmed role = .fin m) :
    p.attemptGross result = .fin (round2 (grossOf direction entry result.fills)) := by
  unfold attemptGross
  have hlegs : ∀ leg ∈ result.closedLegs, leg ∈ result.legs := fun leg hleg =>
    (LeggingExitResult.mem_closedLegs.mp hleg).1
  rw [addGross_foldl h hdirection hentry hconfirmed _ 0 hlegs, zero_add]
  rfl

end AccountedPosition

namespace MonitoredPosition

def banking (pos : MonitoredPosition) (result : LeggingExitResult) (origin : ExitOrigin) (reason : String) :
    MonitoredPosition :=
  pos.afterBanking result.record origin reason (pos.bank result.record result.closedLegs)

def ComesTo (mode : ExecutionMode) (pos : MonitoredPosition) (result : LeggingExitResult) (origin : ExitOrigin)
    (reason : String) : AppliedExit → Prop
  | .threw => True
  | .nothing _ => True
  | .uncertain persist _ => result.isUncertain mode = true ∧ ∃ outstanding blocked,
      persist.projected = pos.recovering (pos.attemptWithout result.record origin reason .uncertain none outstanding) blocked
  | .invalid _ _ => result.isUncertain mode = false ∧ result.closedLegs ≠ [] ∧ pos.invalidRole result.record ≠ none
  | .final projected => pos.invalidRole result.record = none ∧
      isBoxPositionFlat (pos.banking result origin reason).remaining = true ∧
        projected = { pos.banking result origin reason with exitBlockedReason := none }
  | .partial_ persist _ => pos.invalidRole result.record = none ∧ persist.projected = pos.banking result origin reason

theorem applyLeggingExitResult_comesTo (mode : ExecutionMode) (pos : MonitoredPosition) (result : LeggingExitResult)
    (origin : ExitOrigin) (reason : String) :
    ComesTo mode pos result origin reason (pos.applyLeggingExitResult mode result origin reason) := by
  unfold applyLeggingExitResult
  dsimp only
  split
  · rename_i huncertain
    exact map_elim_threw _ _ trivial fun residual => ⟨huncertain, residual.length, _, rfl⟩
  · rename_i hcertain
    split
    · trivial
    · rename_i hclosed
      split
      · rename_i role hrole
        refine map_elim_threw _ _ trivial fun residual => ⟨by simpa using hcertain, hclosed, ?_⟩
        rw [hrole]
        exact Option.some_ne_none role
      · rename_i hvalid
        split
        · rename_i hflat
          exact ⟨hvalid, hflat, rfl⟩
        · exact elim_threw _ trivial fun residual => ⟨hvalid, rfl⟩

end MonitoredPosition

theorem closedSums_append (attempts : List ExitAttempt) (attempt : ExitAttempt) (role : BoxLegRole) {q v q' v' : ℚ}
    (h : AccountedPosition.closedSums attempts role = (.fin q, .fin v))
    (hq : (attempt.fillsByRole role).getD (.fin 0) = .fin q')
    (hv : ((attempt.fillsByRole role).getD (.fin 0)).mul ((attempt.avgPriceByRole role).getD (.fin 0)) = .fin v') :
    AccountedPosition.closedSums (attempts ++ [attempt]) role = (.fin (q + q'), .fin (v + v')) := by
  unfold AccountedPosition.closedSums at h ⊢
  rw [List.foldl_append, h, List.foldl_cons, List.foldl_nil]
  refine Prod.ext ?_ ?_
  · exact (congrArg (Number.fin q).add hq).trans (Number.add_fin ..)
  · exact (congrArg (Number.fin v).add hv).trans (Number.add_fin ..)

/-! ## The accounting of a position -/

namespace AccountedPosition

def grossSum (grossPnls : List (Option Number)) : Number :=
  grossPnls.foldl (fun sum gross => sum.add (gross.getD (.fin 0))) (.fin 0)

structure Sums (direction : BoxDirection) (entry opened : BoxLegRole → ℚ) (p : AccountedPosition)
    (fills : List ExitFill) : Prop where
  directed : p.pos.position.entryDirection = direction
  entered : ∀ role, p.entryPrice role = .fin (entry role)
  attempts : ∀ role, closedSums p.pos.exitAttempts role = (.fin (quantityOf fills role), .fin (valueOf fills role))
  positive : ∀ f ∈ fills, 0 < f.quantity
  length : p.grossPnls.length = p.pos.exitAttempts.length
  gross : ∃ k : ℤ, grossSum p.grossPnls = .fin (k / 100) ∧
    |k / 100 - grossOf direction entry fills| ≤ p.grossPnls.length / 200
  outstanding : ∀ role, ∃ n : ℕ, p.pos.remaining role = .fin n ∧ (n : ℚ) + quantityOf fills role = opened role

variable {direction : BoxDirection} {entry opened : BoxLegRole → ℚ} {p : AccountedPosition} {fills : List ExitFill}

section

variable (h : Sums direction entry opened p fills)
include h

theorem Sums.recorded {projected : MonitoredPosition} {attempt : ExitAttempt} {gross : Option Number}
    {banked : List ExitFill} (hdirection : projected.position.entryDirection = direction)
    (hattempts : projected.exitAttempts = p.pos.exitAttempts ++ [attempt])
    (hquantity : ∀ role, (attempt.fillsByRole role).getD (.fin 0) = .fin (quantityOf banked role))
    (hvalue : ∀ role, ((attempt.fillsByRole role).getD (.fin 0)).mul ((attempt.avgPriceByRole role).getD (.fin 0)) =
      .fin (valueOf banked role))
    (hpositive : ∀ f ∈ banked, 0 < f.quantity)
    (hgross : gross.getD (.fin 0) = .fin (round2 (grossOf direction entry banked)))
    (houtstanding : ∀ role, ∃ n : ℕ, projected.remaining role = .fin n ∧ (n : ℚ) + quantityOf (fills ++ banked) role =
      opened role) :
    Sums direction entry opened (p.recorded projected gross) (fills ++ banked) where
  directed := hdirection
  entered := h.entered
  attempts role := by
    rw [quantityOf, valueOf, WeightedMean.total_append, WeightedMean.moment_append]
    change closedSums projected.exitAttempts role = _
    rw [hattempts]
    exact closedSums_append _ _ role (h.attempts role) (hquantity role) (hvalue role)
  positive f hf := by
    rcases List.mem_append.mp hf with hf | hf
    · exact h.positive f hf
    · exact hpositive f hf
  length := by
    change (p.grossPnls ++ [gross]).length = projected.exitAttempts.length
    rw [hattempts, List.length_append, List.length_append, h.length]
    rfl
  gross := by
    obtain ⟨k, hk, herror⟩ := h.gross
    obtain ⟨l, hl⟩ := round2_int (grossOf direction entry banked)
    refine ⟨k + l, ?_, ?_⟩
    · unfold grossSum at hk ⊢
      change (p.grossPnls ++ [gross]).foldl _ _ = _
      rw [List.foldl_append, hk, List.foldl_cons, List.foldl_nil, hgross, hl, Number.add_fin]
      push_cast
      rw [add_div]
    · have hround := round2_error (grossOf direction entry banked)
      have hsplit : grossOf direction entry (fills ++ banked) =
          grossOf direction entry fills + grossOf direction entry banked := by
        simp [grossOf]
      change |_| ≤ ((p.grossPnls ++ [gross]).length : ℚ) / 200
      rw [hl] at hround
      rw [hsplit, List.length_append, List.length_singleton]
      push_cast
      rw [abs_le] at herror hround ⊢
      constructor <;> linarith
  outstanding := houtstanding

theorem Sums.without {result : LeggingExitResult} (origin : ExitOrigin) (reason blocked : String) (outstanding : ℕ)
    (hnone : ∀ role, result.record.confirmed role = .fin 0) :
    Sums direction entry opened
      (p.recorded
        (p.pos.recovering (p.pos.attemptWithout result.record origin reason .uncertain none outstanding) blocked) none)
      fills := by
  rw [← List.append_nil fills]
  refine h.recorded h.directed rfl ?_ ?_ (fun f hf => absurd hf List.not_mem_nil) ?_ ?_
  · intro role
    exact hnone role
  · intro role
    refine (congrArg (fun q : Number => q.mul (.fin 0)) (hnone role)).trans ?_
    rw [Number.mul_fin, zero_mul, valueOf, WeightedMean.moment_nil]
  · simp [grossOf]
  · intro role
    rw [List.append_nil]
    exact h.outstanding role

theorem Sums.banking {result : LeggingExitResult} (hresult : result.WellFormed)
    (hvalid : p.pos.invalidRole result.record = none) (origin : ExitOrigin) (reason : String)
    (blocked : Option String) :
    Sums direction entry opened
      (p.recorded { p.pos.banking result origin reason with exitBlockedReason := blocked } (some (p.attemptGross result)))
      (fills ++ result.fills) := by
  have hwhole : ∀ role, ∃ n : ℕ, p.pos.remaining role = .fin n := fun role => (h.outstanding role).imp fun _ hn => hn.1
  have hconfirmed : ∀ role, ∃ m : ℕ, result.record.confirmed role = .fin m := by
    intro role
    obtain ⟨n, hn⟩ := hwhole role
    obtain ⟨m, hm, -⟩ := MonitoredPosition.confirmed_of_valid hvalid hn
    exact ⟨m, hm⟩
  have hrecords := MonitoredPosition.bank_records hresult hvalid hwhole
  refine h.recorded h.directed rfl (fun role => (hrecords role).1) (fun role => (hrecords role).2) ?_ ?_ ?_
  · intro f hf
    obtain ⟨leg, -, hclosed, price, -, -, rfl⟩ := LeggingExitResult.mem_fills.mp hf
    obtain ⟨m, hm⟩ := hconfirmed leg.role
    rw [hm, Number.fin_lt_fin] at hclosed
    simpa [hm] using hclosed
  · exact attemptGross_eq hresult h.directed h.entered hconfirmed
  · intro role
    obtain ⟨n, hn, hopened⟩ := h.outstanding role
    obtain ⟨k, hk, haccount⟩ := MonitoredPosition.bank_account hvalid result.legs hn
    refine ⟨k, hk, ?_⟩
    rw [quantityOf, WeightedMean.total_append, ← quantityOf, ← quantityOf,
      MonitoredPosition.quantity_fills hresult hvalid hwhole, ← hopened, ← haccount]
    ring

theorem Sums.booking (hflat : ∀ role, p.pos.remaining role = .fin 0) :
    SumOfParts direction entry opened fills p.pos.exitAttempts.length p.booking where
  roles := by simp [AccountedPosition.booking, buildFinalExitLegs, Function.comp_def]
  price := by
    intro leg hleg hfill
    obtain ⟨role, -, rfl⟩ := List.mem_map.mp hleg
    obtain ⟨f, hf, hrole⟩ := hfill
    have hpos : 0 < quantityOf fills role := WeightedMean.total_pos h.positive hf hrole
    change some (p.finalExitPrice role) = _
    unfold finalExitPrice
    rw [h.attempts role]
    simp only [Number.fin_lt_fin, if_pos hpos, Number.div_fin hpos.ne']
    rfl
  gross := by
    obtain ⟨k, hk, herror⟩ := h.gross
    refine ⟨k / 100, ?_, ?_⟩
    · change round2Price (round2Price (grossSum p.grossPnls)) = _
      rw [hk]
      simp [round2Price, round2_of_int]
    · have hopened : ∀ role, opened role = quantityOf fills role := by
        intro role
        obtain ⟨n, hn, hsum⟩ := h.outstanding role
        rw [hflat role, Number.fin.injEq] at hn
        rw [← hsum, ← hn, zero_add]
      have hkeys : ∀ f ∈ fills, f.role ∈ boxLegRoles := fun f _ => f.role.mem_boxLegRoles
      have htotal := WeightedMean.sum_difference ExitFill.price (fun role => sideSign role direction) entry
        boxLegRoles_nodup hkeys h.positive
      simp only [hopened]
      rw [← h.length, ← htotal]
      exact herror

end

end AccountedPosition

/-! ## Runs -/

namespace CloseAccount

/-- A position as it was opened: whole quantities, finite entry prices, and no exit yet. -/
structure Opened (s : CloseAccount) : Prop where
  whole : ∀ role, ∃ n : ℕ, s.accounted.pos.remaining role = .fin n
  finite : ∀ role, (s.accounted.entryPrice role).isFinite = true
  attempts : s.accounted.pos.exitAttempts = []
  gross : s.accounted.grossPnls = []
  booked : s.booked = none
  fills : s.fills = []

def Priced (mode : ExecutionMode) (s : CloseAccount) : AccountingEvent → Prop
  | .result result _ _ =>
    (result.isUncertain mode = true → ∀ role, result.record.confirmed role = .fin 0) ∧
      (result.isUncertain mode = false → result.closedLegs ≠ [] → s.accounted.pos.invalidRole result.record = none)
  | .reconciled exact _ => exact = s.accounted.pos.remaining

end CloseAccount

def AccountingEvent.WellFormed : AccountingEvent → Prop
  | .result answer _ _ => answer.WellFormed
  | .reconciled _ _ => True

namespace CloseAccount

variable {direction : BoxDirection} {entry opened : BoxLegRole → ℚ} {s : CloseAccount}

structure Accounted (direction : BoxDirection) (entry opened : BoxLegRole → ℚ) (s : CloseAccount) : Prop where
  sums : s.accounted.Sums direction entry opened s.fills
  booked : ∀ booking, s.booked = some booking →
    booking = s.accounted.booking ∧ ∀ role, s.accounted.pos.remaining role = .fin 0

theorem Opened.accounted (h : s.Opened) :
    Accounted s.accounted.pos.position.entryDirection (fun role => (s.accounted.entryPrice role).value)
      (fun role => (s.accounted.pos.remaining role).value) s := by
  refine ⟨⟨rfl, ?_, ?_, ?_, ?_, ⟨0, ?_, ?_⟩, ?_⟩, ?_⟩
  · intro role
    have hfinite := h.finite role
    cases hentry : s.accounted.entryPrice role with
    | fin q => rfl
    | _ =>
      rw [hentry] at hfinite
      cases hfinite
  · intro role
    rw [h.attempts, h.fills]
    rfl
  · simp [h.fills]
  · rw [h.gross, h.attempts]
    rfl
  · simp [h.gross, AccountedPosition.grossSum]
  · simp [h.gross, h.fills, grossOf]
  · intro role
    obtain ⟨n, hn⟩ := h.whole role
    exact ⟨n, hn, by simp [h.fills, hn]⟩
  · simp [h.booked]

theorem Accounted.applyResult (h : Accounted direction entry opened s) (hopen : s.booked = none) (mode : ExecutionMode)
    {result : LeggingExitResult} (hresult : result.WellFormed) (origin : ExitOrigin) (reason : String)
    (hpriced : s.Priced mode (.result result origin reason)) :
    Accounted direction entry opened (s.applyResult mode result origin reason) := by
  have hcomes := MonitoredPosition.applyLeggingExitResult_comesTo mode s.accounted.pos result origin reason
  unfold CloseAccount.applyResult
  dsimp only
  generalize s.accounted.pos.applyLeggingExitResult mode result origin reason = applied at hcomes ⊢
  cases applied with
  | threw => exact h
  | nothing detail => exact ⟨{ h.sums with }, by simp [hopen]⟩
  | uncertain persist detail =>
    obtain ⟨huncertain, outstanding, blocked, hprojected⟩ := hcomes
    refine ⟨?_, by simp [hopen]⟩
    change AccountedPosition.Sums _ _ _ (s.accounted.recorded persist.projected none) s.fills
    rw [hprojected]
    exact h.sums.without origin reason blocked outstanding (hpriced.1 huncertain)
  | invalid persist message =>
    exact absurd (hpriced.2 hcomes.1 hcomes.2.1) hcomes.2.2
  | partial_ persist closedRoles =>
    obtain ⟨hvalid, hprojected⟩ := hcomes
    refine ⟨?_, by simp [hopen]⟩
    change AccountedPosition.Sums _ _ _ (s.accounted.recorded persist.projected _) (s.fills ++ result.fills)
    rw [hprojected]
    exact h.sums.banking hresult hvalid origin reason _
  | final projected =>
    obtain ⟨hvalid, hflat, rfl⟩ := hcomes
    refine ⟨h.sums.banking hresult hvalid origin reason none, ?_⟩
    rintro booking hbooking
    cases hbooking
    refine ⟨rfl, ?_⟩
    intro role
    exact of_decide_eq_true (List.all_eq_true.mp hflat role role.mem_boxLegRoles)

theorem Accounted.step (h : Accounted direction entry opened s) (mode : ExecutionMode) (event : AccountingEvent)
    (hevent : event.WellFormed ∧ s.Priced mode event) : Accounted direction entry opened (s.step mode event).1 := by
  unfold CloseAccount.step
  cases hbooked : s.booked with
  | some booking => exact h
  | none =>
    cases event with
    | result answer origin reason => exact h.applyResult hbooked mode hevent.1 origin reason hevent.2
    | reconciled exact_ state =>
      have hsame : exact_ = s.accounted.pos.remaining := hevent.2
      subst hsame
      exact ⟨{ h.sums with }, by simp [CloseAccount.reconcile, hbooked]⟩

/-- **A close is the sum of its parts** in every run that records no fill without a price. -/
theorem close_sum_of_parts (mode : ExecutionMode) (s : CloseAccount) (hs : s.Opened) (events : List AccountingEvent)
    (h : Run.Guarded (step mode) (fun s event => event.WellFormed ∧ s.Priced mode event) s events) :
    let closed := Run.finish (step mode) s events
    ∀ booking ∈ closed.booked,
      SumOfParts s.accounted.pos.position.entryDirection (fun role => (s.accounted.entryPrice role).value)
        (fun role => (s.accounted.pos.remaining role).value) closed.fills closed.accounted.pos.exitAttempts.length
        booking := by
  intro closed booking hbooking
  have hclosed := h.invariant _ (fun s event hs hevent => hs.step mode event hevent) hs.accounted
  obtain ⟨rfl, hflat⟩ := hclosed.booked booking hbooking
  exact hclosed.sums.booking hflat

end CloseAccount

/-! ## A fill without a price -/

def box50 : CloseAccount where
  accounted :=
    { pos :=
        { position := ⟨"t1", none, fun _ => .fin 50, fun _ => ⟨.fin 1, "NIFTY", "NFO"⟩⟩
          positionState := .box
          exitAttempts := []
          exitBlockedReason := none }
      entryPrices := fun _ => some (.fin 90)
      grossPnls := [] }
  booked := none
  fills := []

def exitOf (quantity : BoxLegRole → ℚ) : LeggingExitRecord :=
  ⟨boxLegRoles.map fun role => ⟨role, .fin (quantity role), none⟩, fun role => some (.fin (quantity role)), 4, 4⟩

def closesAt (price : ℚ) (quantity : BoxLegRole → ℚ) : LeggingExitResult :=
  .ok (boxLegRoles.map fun role => ⟨role, .sell, .fin 1, "NIFTY", some (.fin price)⟩) (exitOf quantity)

def closesAll (quantity : BoxLegRole → ℚ) : LeggingExitResult := closesAt 100 quantity

def onlyK1Ce (quantity : ℚ) : BoxLegRole → ℚ
  | .k1Ce => quantity
  | _ => 0

def unpricedFill : List AccountingEvent :=
  [.result (.failed (some []) (exitOf (onlyK1Ce 20)) "exit terminal quantity uncertain; position moved to recovery") .auto
      "EDGE_CONVERGED",
    .reconciled (fun role => .fin (50 - onlyK1Ce 20 role)) .partiallyExited,
    .result (closesAll fun role => 50 - onlyK1Ce 20 role) .manual "MANUAL"]

def accountedRun (events : List AccountingEvent) : CloseAccount := Run.finish (CloseAccount.step .live) box50 events

theorem box50_opened : box50.Opened := ⟨fun _ => ⟨50, rfl⟩, fun _ => rfl, rfl, rfl, rfl, rfl⟩

theorem closesAt_wellFormed (price : ℚ) (quantity : BoxLegRole → ℚ) : (closesAt price quantity).WellFormed where
  nodup := boxLegRoles_nodup
  finite := by
    intro leg hleg price hprice
    obtain ⟨role, -, rfl⟩ := List.mem_map.mp hleg
    cases hprice
    rfl

def twoAttempts : List AccountingEvent :=
  [.result (closesAt 95 fun _ => 20) .auto "EDGE_CONVERGED", .result (closesAll fun _ => 30) .manual "MANUAL"]

/-- Of each leg 20 are closed at 95 and then 30 at 100, and 98 is booked. -/
theorem close_sum_of_box50 : ∃ booking ∈ (accountedRun twoAttempts).booked,
    booking.legs.map BoxLegEvaluation.price = List.replicate 4 (some (.fin 98)) ∧
      SumOfParts .longBox (fun _ => 90) (fun _ => 50) (accountedRun twoAttempts).fills
        (accountedRun twoAttempts).accounted.pos.exitAttempts.length booking := by
  have hguarded : Run.Guarded (CloseAccount.step .live)
      (fun s event => event.WellFormed ∧ CloseAccount.Priced .live s event) box50 twoAttempts := by
    refine ⟨⟨closesAt_wellFormed .., ?_, ?_⟩, ⟨closesAt_wellFormed .., ?_, ?_⟩, trivial⟩
    · intro huncertain
      cases huncertain
    · intro _ _
      decide +kernel
    · intro huncertain
      cases huncertain
    · intro _ _
      decide +kernel
  obtain ⟨booking, hbooking⟩ : ∃ booking, (accountedRun twoAttempts).booked = some booking :=
    Option.isSome_iff_exists.mp (by decide +kernel)
  have hprices : (accountedRun twoAttempts).booked.map (fun booking => booking.legs.map BoxLegEvaluation.price) =
      some (List.replicate 4 (some (.fin 98))) := by decide +kernel
  rw [hbooking] at hprices
  exact ⟨booking, hbooking, Option.some_inj.mp hprices,
    CloseAccount.close_sum_of_parts .live box50 box50_opened twoAttempts hguarded booking hbooking⟩

theorem unpriced_fill_dilutes : box50.Opened ∧ (∀ event ∈ unpricedFill, event.WellFormed) ∧
    (accountedRun unpricedFill).booked.map (fun booking => (booking.legs.map BoxLegEvaluation.price, booking.grossPnl)) =
      some ([some (.fin 60), some (.fin 100), some (.fin 100), some (.fin 100)], .fin (-200)) ∧
    ∀ booking ∈ (accountedRun unpricedFill).booked, ¬ SumOfParts .longBox (fun _ => 90) (fun _ => 50)
      (accountedRun unpricedFill).fills (accountedRun unpricedFill).accounted.pos.exitAttempts.length booking := by
  have hbooked : (accountedRun unpricedFill).booked.map
      (fun booking => (booking.legs.map BoxLegEvaluation.price, booking.grossPnl)) =
        some ([some (.fin 60), some (.fin 100), some (.fin 100), some (.fin 100)], .fin (-200)) := by decide +kernel
  refine ⟨box50_opened, ?_, hbooked, ?_⟩
  · intro event hevent
    simp only [unpricedFill, List.mem_cons, List.not_mem_nil, or_false] at hevent
    rcases hevent with rfl | rfl | rfl
    · exact ⟨List.nodup_nil, fun _ hleg => absurd hleg List.not_mem_nil⟩
    · trivial
    · exact closesAt_wellFormed ..
  · intro booking hbooking hsum
    rw [Option.mem_def.mp hbooking, Option.map_some, Option.some.injEq, Prod.mk.injEq] at hbooked
    obtain ⟨leg, rest, hlegs, hprice, -⟩ := List.map_eq_cons_iff.mp hbooked.1
    have hrole : leg.role = .k1Ce := by
      have hroles := hsum.roles
      rw [hlegs] at hroles
      exact (List.cons.inj hroles).1
    have hmean := hsum.price leg (hlegs ▸ List.mem_cons_self ..)
      ⟨⟨.k1Ce, 30, 100⟩, by decide +kernel, hrole.symm⟩
    rw [hprice, hrole] at hmean
    exact absurd hmean (by decide +kernel)

end BoxEngine
