import BoxEngine.LiveExit
import Mathlib.Algebra.Order.BigOperators.Group.List
import Mathlib.Data.List.Induction

/-!
# No naked short

What was sold of a long leg leaves the quantity its short may still have open. A short counts as closed only for the
fill of a terminal snapshot.
-/

namespace BoxEngine

open Js

/-! ## What a trace sold and closed -/

/-- The quantity a terminal answer shows as filled; what may still fill counts as nothing. -/
def terminalFill : SubmitAnswer → ℚ
  | .ok order => if isBrokerOrderTerminal order.state then max 0 order.filledQuantity.value else 0
  | .error _ => 0

variable (role : BoxLegRole)

/-- A SELL counts in full from its submission: it may still fill. -/
def Moment.sold : Moment → ℚ
  | .submitted request => if request.role = role ∧ request.side = .sell then request.quantity.value else 0
  | .answered _ _ => 0

/-- A BUY counts once its answer is terminal. -/
def Moment.closed : Moment → ℚ
  | .submitted _ => 0
  | .answered r answer => if r = role then terminalFill answer else 0

def soldOn (trace : List Moment) : ℚ := (trace.map (Moment.sold role)).sum

def closedOn (trace : List Moment) : ℚ := (trace.map (Moment.closed role)).sum

/-- What is held long and short of each role. -/
structure Holding where
  long : BoxLegRole → ℚ
  short : BoxLegRole → ℚ

variable (held : Holding)

/-- What of the short of a role may still be open after the trace. -/
def Holding.mayBeOpen (role : BoxLegRole) (trace : List Moment) : ℚ :=
  max 0 (held.short role - closedOn role trace)

/-- Either nothing of a role was sold or the rest still covers its partner's short. -/
def Covered (trace : List Moment) : Prop :=
  ∀ role, soldOn role trace = 0 ∨
    soldOn role trace + held.mayBeOpen (verticalPartner role) trace ≤ held.long role

/-- Covered at every moment of the trace. -/
def AlwaysCovered (trace : List Moment) : Prop :=
  ∀ before, before <+: trace → Covered held before

variable (role : BoxLegRole) (ctx : ExitContext) (venue : Venue)

@[simp] theorem soldOn_append (t u : List Moment) :
    soldOn role (t ++ u) = soldOn role t + soldOn role u := by simp [soldOn]

@[simp] theorem closedOn_append (t u : List Moment) :
    closedOn role (t ++ u) = closedOn role t + closedOn role u := by simp [closedOn]

@[simp] theorem soldOn_single (m : Moment) : soldOn role [m] = m.sold role := by simp [soldOn]

theorem terminalFill_nonneg (answer : SubmitAnswer) : 0 ≤ terminalFill answer := by
  unfold terminalFill
  split
  · split
    · exact le_max_left _ _
    · exact le_refl 0
  · exact le_refl 0

theorem Moment.closed_nonneg (m : Moment) : 0 ≤ m.closed role := by
  unfold Moment.closed
  split
  · exact le_refl 0
  · split
    · exact terminalFill_nonneg _
    · exact le_refl 0

theorem closedOn_nonneg (trace : List Moment) : 0 ≤ closedOn role trace := by
  refine List.sum_nonneg ?_
  intro x hx
  obtain ⟨m, -, rfl⟩ := List.mem_map.mp hx
  exact m.closed_nonneg role

theorem closed_le_closedOn {role : BoxLegRole} {trace : List Moment} {m : Moment} (h : m ∈ trace) :
    m.closed role ≤ closedOn role trace := by
  refine List.single_le_sum ?_ _ (List.mem_map_of_mem h)
  intro x hx
  obtain ⟨m', -, rfl⟩ := List.mem_map.mp hx
  exact m'.closed_nonneg role

variable (held : Holding)

theorem Holding.mayBeOpen_append_le (role : BoxLegRole) (t u : List Moment) :
    held.mayBeOpen role (t ++ u) ≤ held.mayBeOpen role t := by
  have := closedOn_nonneg role u
  unfold mayBeOpen
  rw [closedOn_append]
  exact max_le_max (le_refl 0) (by linarith)

theorem soldOn_eq_zero {role : BoxLegRole} {trace : List Moment} (h : ∀ m ∈ trace, m.sold role = 0) :
    soldOn role trace = 0 := by
  refine List.sum_eq_zero ?_
  intro x hx
  obtain ⟨m, hm, rfl⟩ := List.mem_map.mp hx
  exact h m hm

/-! ## Keeping a trace covered -/

section

variable {held : Holding} {trace : List Moment}

theorem alwaysCovered_nil : AlwaysCovered held [] := by
  intro before h
  obtain rfl := List.prefix_nil.mp h
  exact fun _ => .inl rfl

theorem AlwaysCovered.covered (h : AlwaysCovered held trace) : Covered held trace := h trace (List.prefix_refl _)

theorem AlwaysCovered.snoc {m : Moment} (h : AlwaysCovered held trace) (hm : Covered held (trace ++ [m])) :
    AlwaysCovered held (trace ++ [m]) := by
  intro before hbefore
  rcases List.prefix_concat_iff.mp hbefore with rfl | hshort
  · exact hm
  · exact h before hshort

theorem AlwaysCovered.quiet {m : Moment} (h : AlwaysCovered held trace) (hm : ∀ role, m.sold role = 0) :
    AlwaysCovered held (trace ++ [m]) := by
  refine h.snoc ?_
  intro role
  rw [soldOn_append, soldOn_single, hm role, add_zero]
  refine (h.covered role).imp id ?_
  intro hcover
  have := held.mayBeOpen_append_le (verticalPartner role) trace [m]
  linarith

/-- The request may be sent: it sells nothing that an open short needs. -/
def Free (held : Holding) (trace : List Moment) (request : BrokerOrderRequest) : Prop :=
  request.side = .sell → soldOn request.role trace = 0 ∧
    request.quantity.value + held.mayBeOpen (verticalPartner request.role) trace ≤ held.long request.role

variable {request : BrokerOrderRequest}

theorem AlwaysCovered.submit (h : AlwaysCovered held trace)
    (hfree : Free held trace request) : AlwaysCovered held (trace ++ [.submitted request]) := by
  by_cases hsell : request.side = .sell
  · obtain ⟨hnone, hcover⟩ := hfree hsell
    refine h.snoc ?_
    intro role
    have hopen := held.mayBeOpen_append_le (verticalPartner role) trace [.submitted request]
    by_cases hrole : request.role = role
    · subst hrole
      have hsold : Moment.sold request.role (.submitted request) = request.quantity.value := by
        simp [Moment.sold, hsell]
      rw [soldOn_append, soldOn_single, hnone, zero_add, hsold]
      exact .inr (by linarith)
    · have hsold : Moment.sold role (.submitted request) = 0 := by simp [Moment.sold, hrole]
      rw [soldOn_append, soldOn_single, hsold, add_zero]
      exact (h.covered role).imp id fun hcover => by linarith
  · exact h.quiet fun role => by simp [Moment.sold, hsell]

theorem AlwaysCovered.quiets {moments : List Moment} (h : AlwaysCovered held trace)
    (hm : ∀ m ∈ moments, ∀ role, m.sold role = 0) : AlwaysCovered held (trace ++ moments) := by
  induction moments using List.reverseRecOn with
  | nil => simpa using h
  | append_singleton l m ih =>
    rw [← List.append_assoc]
    refine AlwaysCovered.quiet (ih fun m' hm' => hm m' (by simp [hm'])) ?_
    exact hm m (by simp)

theorem Free.append {t : List Moment} (h : Free held trace request)
    (ht : soldOn request.role t = 0) : Free held (trace ++ t) request := by
  intro hsell
  obtain ⟨hnone, hcover⟩ := h hsell
  have := held.mayBeOpen_append_le (verticalPartner request.role) trace t
  exact ⟨by rw [soldOn_append, hnone, ht, add_zero], by linarith⟩

variable {requests : List BrokerOrderRequest}

theorem soldOn_submitted {role : BoxLegRole}
    (h : role ∉ requests.map BrokerOrderRequest.role) : soldOn role (requests.map .submitted) = 0 := by
  refine soldOn_eq_zero ?_
  intro m hm
  obtain ⟨request, hrequest, rfl⟩ := List.mem_map.mp hm
  have hrole : request.role ≠ role := fun heq => h (heq ▸ List.mem_map_of_mem hrequest)
  simp [Moment.sold, hrole]

/-- A wave of free requests, one to a role, keeps the trace covered as it goes out. -/
theorem AlwaysCovered.submits (h : AlwaysCovered held trace)
    (hroles : (requests.map BrokerOrderRequest.role).Nodup) (hfree : ∀ request ∈ requests, Free held trace request) :
    AlwaysCovered held (trace ++ requests.map .submitted) := by
  induction requests using List.reverseRecOn with
  | nil => simpa using h
  | append_singleton l request ih =>
    rw [List.map_append, ← List.append_assoc]
    rw [List.map_append, List.nodup_append] at hroles
    have hl := ih hroles.1 fun r hr => hfree r (by simp [hr])
    have hnew : request.role ∉ l.map BrokerOrderRequest.role := by
      intro hmem
      exact hroles.2.2 _ hmem _ (by simp) rfl
    exact hl.submit ((hfree request (by simp)).append (soldOn_submitted hnew))

end

/-! ## Evidence -/

/-- The outcomes by role claim no fill that the trace does not show. -/
def Honest (byRole : ByRole ExitWaveOutcome) (trace : List Moment) : Prop :=
  ∀ role outcome, byRole role = some outcome → outcome.certain = true →
    outcome.filled.value ≤ closedOn role trace

section

variable {byRole : ByRole ExitWaveOutcome} {trace : List Moment} {role : BoxLegRole}

theorem Honest.none (trace : List Moment) : Honest (fun _ => Option.none) trace := by
  intro role outcome h
  cases h

theorem Honest.append (h : Honest byRole trace) (u : List Moment) : Honest byRole (trace ++ u) := by
  intro role outcome hsome hcertain
  have := closedOn_nonneg role u
  rw [closedOn_append]
  linarith [h role outcome hsome hcertain]

theorem Honest.set {outcome : ExitWaveOutcome} (h : Honest byRole trace)
    (hnew : outcome.certain = true → outcome.filled.value ≤ closedOn role trace) :
    Honest (byRole.set role outcome) trace := by
  intro r outcome' hsome hcertain
  unfold ByRole.set at hsome
  split at hsome
  · rename_i hr
    subst hr
    cases hsome
    exact hnew hcertain
  · exact h r outcome' hsome hcertain

theorem Honest.setZero (h : Honest byRole trace) (certain : Bool) :
    Honest (byRole.set role ⟨.fin 0, certain⟩) trace := h.set fun _ => closedOn_nonneg role trace

theorem terminalFill_of_terminal {order : BrokerOrder} (h : isBrokerOrderTerminal order.state = true) :
    order.filledQuantity.value ≤ terminalFill (.ok order) := by
  simp [terminalFill, h]

theorem answered_le {answer : SubmitAnswer} (h : .answered role answer ∈ trace) :
    terminalFill answer ≤ closedOn role trace := by
  have := @closed_le_closedOn role _ _ h
  simpa [Moment.closed] using this

theorem settleLeg_trace (s : Settlement) (role : BoxLegRole) (answer : SubmitAnswer) :
    (settleLeg s role answer).log.trace = s.log.trace := by
  unfold settleLeg
  split
  · rfl
  · rfl
  · rfl
  · split <;> rfl
  · rfl

theorem settleLeg_honest {s : Settlement} {answer : SubmitAnswer} (h : Honest s.byRole trace)
    (hanswer : .answered role answer ∈ trace) : Honest (settleLeg s role answer).byRole trace := by
  unfold settleLeg
  split
  · refine h.set ?_
    intro hterminal
    exact (terminalFill_of_terminal hterminal).trans (answered_le hanswer)
  · exact h.setZero true
  · refine h.set ?_
    intro hcertain
    cases hcertain
  · split
    · exact h.setZero true
    · exact h.setZero false
  · exact h.setZero false

theorem settle_all (requests : List BrokerOrderRequest) (submit : BrokerOrderRequest → SubmitAnswer) {s : Settlement}
    (h : Honest s.byRole trace) (hanswers : ∀ r ∈ requests, .answered r.role (submit r) ∈ trace) :
    Honest (requests.foldl (fun s r => settleLeg s r.role (submit r)) s).byRole trace ∧
      (requests.foldl (fun s r => settleLeg s r.role (submit r)) s).log.trace = s.log.trace := by
  induction requests generalizing s with
  | nil => exact ⟨h, rfl⟩
  | cons r l ih =>
    obtain ⟨hhonest, htrace⟩ := ih (settleLeg_honest h (hanswers r (by simp))) fun r' hr' => hanswers r' (by simp [hr'])
    exact ⟨hhonest, htrace.trans (settleLeg_trace s r.role (submit r))⟩

end

/-! ## One wave -/

def ExitContext.Asks (ctx : ExitContext) (leg : WaveLeg) (request : BrokerOrderRequest) : Prop :=
  request.role = leg.role ∧ request.side = exitSideFor leg.role ctx.direction ∧ request.quantity = .fin leg.quantity

theorem ExitContext.build_asks {ctx : ExitContext} {venue : Venue} {leg : WaveLeg} {request : BrokerOrderRequest}
    (h : ctx.build venue leg.role leg.quantity = .ok request) : ctx.Asks leg request := by
  dsimp only [ExitContext.build] at h
  cases hpricing : venue.buildOrderPricing leg.role (exitSideFor leg.role ctx.direction) leg.quantity with
  | error message => rw [hpricing] at h; cases h
  | ok pricing =>
    rw [hpricing] at h
    cases h
    exact ⟨rfl, rfl, rfl⟩

/-- What the admission of legs keeps and adds. -/
structure Admits (ctx : ExitContext) (legs : List WaveLeg) (a a' : Admission) : Prop where
  trace : a'.log.trace = a.log.trace
  honest : ∀ trace, Honest a.byRole trace → Honest a'.byRole trace
  asked : ∀ request ∈ a'.admitted, request ∈ a.admitted ∨ ∃ leg ∈ legs, ctx.Asks leg request
  roles : (a'.admitted.map BrokerOrderRequest.role).Sublist
    (a.admitted.map BrokerOrderRequest.role ++ legs.map WaveLeg.role)

theorem admitLeg_admits (a : Admission) (leg : WaveLeg) : Admits ctx [leg] a (admitLeg ctx venue a leg).1 := by
  have refused : ∀ reason, Admits ctx [leg] a { a with
      log := ExitLog.notSent { a.log with attempted := a.log.attempted + 1 } leg.role reason
      byRole := a.byRole.set leg.role ⟨.fin 0, true⟩ } := fun reason =>
    ⟨rfl, fun _ h => h.setZero true, fun _ h => .inl h, List.sublist_append_left _ _⟩
  unfold admitLeg
  split
  · exact refused _
  · rename_i request hbuild
    have hasks := ExitContext.build_asks hbuild
    split
    · exact ⟨rfl, fun _ h => h, fun _ h => .inl h, List.sublist_append_left _ _⟩
    · exact refused _
    · refine ⟨rfl, fun _ h => h, ?_, ?_⟩
      · intro r hr
        rcases List.mem_append.mp hr with hr | hr
        · exact .inl hr
        · obtain rfl := List.mem_singleton.mp hr
          exact .inr ⟨leg, by simp, hasks⟩
      · simp [hasks.1]

theorem Admits.trans {ctx : ExitContext} {leg : WaveLeg} {legs : List WaveLeg} {a b c : Admission}
    (h : Admits ctx [leg] a b) (h' : Admits ctx legs b c) : Admits ctx (leg :: legs) a c where
  trace := h'.trace.trans h.trace
  honest t ht := h'.honest t (h.honest t ht)
  asked := by
    intro request hrequest
    rcases h'.asked request hrequest with hb | ⟨l, hl, hasks⟩
    · rcases h.asked request hb with ha | ⟨l, hl, hasks⟩
      · exact .inl ha
      · obtain rfl := List.mem_singleton.mp hl
        exact .inr ⟨l, by simp, hasks⟩
    · exact .inr ⟨l, by simp [hl], hasks⟩
  roles := by
    refine h'.roles.trans ?_
    have := h.roles.append (List.Sublist.refl (legs.map WaveLeg.role))
    simpa using this

theorem admitLegs_admits (a : Admission) (legs : List WaveLeg) : Admits ctx legs a (admitLegs ctx venue a legs).1 := by
  induction legs generalizing a with
  | nil => exact ⟨rfl, fun _ h => h, fun _ h => .inl h, by simp [admitLegs]⟩
  | cons leg legs ih =>
    have hfirst := admitLeg_admits ctx venue a leg
    unfold admitLegs
    split
    · rename_i a' thrown heq
      rw [heq] at hfirst
      refine ⟨hfirst.trace, hfirst.honest, ?_, ?_⟩
      · intro request hrequest
        rcases hfirst.asked request hrequest with ha | ⟨l, hl, hasks⟩
        · exact .inl ha
        · obtain rfl := List.mem_singleton.mp hl
          exact .inr ⟨l, by simp, hasks⟩
      · refine hfirst.roles.trans ?_
        simp
    · rename_i a' heq
      rw [heq] at hfirst
      exact hfirst.trans (ih a')

def WaveLeg.Free (direction : BoxDirection) (trace : List Moment) (leg : WaveLeg) : Prop :=
  exitSideFor leg.role direction = .sell → soldOn leg.role trace = 0 ∧
    leg.quantity + held.mayBeOpen (verticalPartner leg.role) trace ≤ held.long leg.role

/-- What a wave keeps: the cover, and evidence that is no better than the trace. -/
structure WaveSound (held : Holding) (legs : List WaveLeg) (log : ExitLog)
    (out : ExitLog × Except String (ByRole ExitWaveOutcome)) : Prop where
  covered : AlwaysCovered held out.1.trace
  sold : ∀ role ∉ legs.map WaveLeg.role, soldOn role out.1.trace = soldOn role log.trace
  honest : ∀ byRole, out.2 = .ok byRole → Honest byRole out.1.trace

theorem runWave_sound (ctx : ExitContext) (venue : Venue) {legs : List WaveLeg} (log : ExitLog)
    (h : AlwaysCovered held log.trace) (hroles : (legs.map WaveLeg.role).Nodup)
    (hfree : ∀ leg ∈ legs, leg.Free held ctx.direction log.trace) :
    WaveSound held legs log (runWave ctx venue legs log) := by
  unfold runWave
  by_cases hempty : legs.isEmpty = true
  · rw [if_pos hempty]
    exact ⟨h, fun _ _ => rfl, fun byRole hok => by cases hok; exact Honest.none _⟩
  · rw [if_neg hempty]
    split
    · exact ⟨h, fun _ _ => rfl, fun byRole hok => by cases hok⟩
    · have hadmits := admitLegs_admits ctx venue ⟨log, fun _ => none, []⟩ legs
      split
      · rename_i a thrown heq
        rw [heq] at hadmits
        refine ⟨by rw [hadmits.trace]; exact h, fun _ _ => by rw [hadmits.trace], fun byRole hok => by cases hok⟩
      · rename_i a heq
        rw [heq] at hadmits
        have hsub : (a.admitted.map BrokerOrderRequest.role).Sublist (legs.map WaveLeg.role) := by
          simpa using hadmits.roles
        have hsent : ∀ request ∈ a.admitted, Free held log.trace request := by
          intro request hrequest hsell
          obtain hnone | ⟨leg, hleg, hrole, hside, hquantity⟩ := hadmits.asked request hrequest
          · simp at hnone
          · rw [hrole, hquantity]
            exact hfree leg hleg (hside ▸ hsell)
        let trace := a.log.trace ++ a.admitted.map .submitted ++ (venue.arrival a.admitted).val.map venue.answer
        have hanswers : ∀ request ∈ a.admitted, .answered request.role (venue.submit request) ∈ trace := by
          intro request hrequest
          have := (venue.arrival a.admitted).property.mem_iff.mpr hrequest
          exact List.mem_append_right _ (List.mem_map.mpr ⟨request, this, rfl⟩)
        have hquiet : ∀ m ∈ (venue.arrival a.admitted).val.map venue.answer, ∀ role, m.sold role = 0 := by
          intro m hm role
          obtain ⟨request, -, rfl⟩ := List.mem_map.mp hm
          rfl
        obtain ⟨hhonest, htrace⟩ := settle_all a.admitted venue.submit
          (s := ⟨{ a.log with trace }, a.byRole⟩) (hadmits.honest trace (Honest.none trace)) hanswers
        refine ⟨?_, ?_, ?_⟩
        · show AlwaysCovered held _
          rw [htrace]
          show AlwaysCovered held (a.log.trace ++ _ ++ _)
          rw [hadmits.trace]
          exact (h.submits (hsub.nodup hroles) hsent).quiets hquiet
        · intro role hrole
          show soldOn role _ = _
          rw [htrace]
          show soldOn role (a.log.trace ++ _ ++ _) = _
          have hnone := soldOn_submitted fun hmem => hrole (hsub.subset hmem)
          have hzero := soldOn_eq_zero fun m hm => hquiet m hm role
          rw [hadmits.trace, soldOn_append, soldOn_append, hnone, hzero, add_zero, add_zero]
        · intro byRole hok
          cases hok
          rw [htrace]
          exact hhonest

end BoxEngine
