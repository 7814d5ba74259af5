import KcpTest.Kcp.Settings
import KcpTest.Endpoint.Delivery

/-!
Contract: the windows of an endpoint set up by `createKCP`.

Owns: the calls of an endpoint as calls of `ikcp.h`, and with them that both
windows stay within 2048, and that nothing ready is left in `rcv_buf` while
`rcv_queue` has room, in every state a pair of endpoints reaches.
-/

set_option autoImplicit false

namespace KcpTest.Endpoint

open KcpTest.Kcp KcpTest.Library KcpTest.Library.Serial

/-- The calls of `ikcp.h` that a call at an endpoint makes. -/
def Call.apis : Call → List Api
  | .send buffer len before after =>
      [.update (clock32 before), .send buffer len, .update (clock32 after)]
  | .update current => [.update current]
  | .recv len => [.recv len]
  | .input data => [.input data]

theorem runApi_apis (kcp : Kcpcb) (call : Call) : runApi kcp call.apis = call.run kcp := by
  cases call with
  | send buffer len before after =>
      simp only [Call.apis, runApi, Api.run, Call.run, kcpSend, List.append_nil, List.nil_append]
  | update current => simp only [Call.apis, runApi, Api.run, Call.run, List.append_nil]
  | recv len => rfl
  | input data => rfl

/-- What every call of `ikcp.h` keeps, a call at an endpoint keeps. -/
theorem call_keeps {P : Kcpcb → Prop}
    (step : ∀ kcp buffer len, P kcp → P (ikcpSend kcp buffer len).2)
    (update : ∀ kcp current, P kcp → P (ikcpUpdate kcp current).1)
    (recv : ∀ kcp len, P kcp → P (ikcpRecv kcp len).kcp)
    (input : ∀ kcp data, P kcp → P (ikcpInput kcp data).2) {kcp : Kcpcb} (holds : P kcp)
    (call : Call) : P (call.run kcp).1 := by
  cases call with
  | send buffer len before after =>
      rw [Call.run, kcpSend_fst, kcpSendQueued]
      exact update _ _ (step _ _ _ (update _ _ holds))
  | update current => exact update kcp current holds
  | recv len => exact recv kcp len holds
  | input data => exact input kcp data holds

/-- An endpoint between two calls. -/
structure Healthy (kcp : Kcpcb) : Prop where
  formed : WellFormed kcp
  windowed : Windowed 2048 kcp
  settled : Settled kcp

theorem Healthy.createKCP : Healthy createKCP where
  formed := WellFormed.createKCP
  windowed :=
    { sending :=
        { sndWnd := (by decide : Endpoint.createKCP.sndWnd.toNat ≤ 2048)
          sndUna := rfl
          flight_le := (by decide : Endpoint.createKCP.flight ≤ 2048)
          inFlight := InWindow.nil _ _ }
      receiving :=
        { rcvWnd := (by decide : Endpoint.createKCP.rcvWnd.toNat ≤ 2048)
          early := InWindow.nil _ _
          queue_le := Nat.zero_le _ } }
  settled := by
    intro seg rest filled
    exact absurd filled (List.cons_ne_nil seg rest).symm

theorem Windowed.call {kcp : Kcpcb} (windowed : Windowed 2048 kcp) (call : Call) :
    Windowed 2048 (call.run kcp).1 := by
  have within : ∀ api ∈ call.apis, api.Within 2048 := by
    cases call <;> simp [Call.apis, Api.Within]
  have kept := runApi_keeps (Windowed.run (by decide) (by decide)) kcp call.apis within windowed
  rwa [runApi_apis] at kept

theorem Settled.call {kcp : Kcpcb} (settled : Settled kcp) (call : Call) :
    Settled (call.run kcp).1 := by
  refine call_keeps ?_ ?_ ?_ ?_ settled call
  · intro kcp buffer len kept
    obtain ⟨sndQueue, result⟩ := ikcpSend_sndQueue kcp buffer len
    rw [result]
    exact kept.congr rfl rfl
  · intro kcp current kept
    obtain ⟨moved, effect, -⟩ := ikcpUpdate_effect kcp current
    exact kept.congr (congrArg Config.rcvWnd effect.config) effect.inbound
  · exact fun kcp len kept => Settled.recv kept len
  · exact fun kcp data kept => Settled.input kept data

theorem Healthy.run {kcp : Kcpcb} (healthy : Healthy kcp) (call : Call) :
    Healthy (call.run kcp).1 where
  formed := healthy.formed.run call
  windowed := Windowed.call healthy.windowed call
  settled := Settled.call healthy.settled call

theorem Reachable.healthy {pair : Pair} (reachable : Reachable pair) :
    Healthy pair.near.kcp ∧ Healthy pair.far.kcp := by
  induction reachable with
  | refl => exact ⟨Healthy.createKCP, Healthy.createKCP⟩
  | tail _ step inductionHypothesis =>
      cases step with
      | near call allowed => exact ⟨inductionHypothesis.1.run call, inductionHypothesis.2⟩
      | far call allowed => exact ⟨inductionHypothesis.1, inductionHypothesis.2.run call⟩

end KcpTest.Endpoint
