import SwitchPaxos.Controller.Serving
import SwitchPaxos.Controller.Lossless

/-!
# Nodes without their switches

The Paxos part of a node uses its switch only to look up ports, and to send
packets to hosts.  A node that knows no ports, and sends nothing to hosts, does
the same but for that.
-/

namespace SwitchPaxos

/-- What is left of an effect if ports do not matter and there are no hosts. -/
def Effect.blur : Effect → List Effect
  | .command (.packetOut _ _) => []
  | .sent frame _ => [.sent frame OFPP_ALL]
  | effect => [effect]

section Blur

variable (effects : List Effect)

/-- What does not depend on ports and packets for hosts can still be read off.
-/
theorem filterMap_blur (part : Effect → Option β)
    (same : ∀ effect, effect.blur.filterMap part = (part effect).toList) :
    (effects.flatMap Effect.blur).filterMap part = effects.filterMap part := by
  rw [List.filterMap_flatMap, List.filterMap_eq_flatMap_toList]
  exact List.flatMap_congr fun effect _ => same effect

theorem calls_blur : calls (effects.flatMap Effect.blur) = calls effects := by
  apply filterMap_blur
  rintro (_ | _ | _ | _ | _ | (_ | _ | _ | _)) <;> rfl

theorem sentFrames_blur :
    sentFrames (effects.flatMap Effect.blur) = sentFrames effects := by
  apply filterMap_blur
  rintro (_ | _ | _ | _ | _ | (_ | _ | _ | _)) <;> rfl

theorem flatMap_blur_handed (handed : List Handed) :
    (handed.map Effect.handed).flatMap Effect.blur =
      handed.map Effect.handed := by
  rw [List.flatMap_map, List.map_eq_flatMap]
  rfl

end Blur

namespace PaxosController

/-- The node before its switch learned anything. -/
def forget (self : PaxosController) : PaxosController :=
  self.withSwitch fun _ => .new false false

theorem viewed_forget :
    Viewed (fun _ => True) (fun _ => .new false false) Effect.blur where
  state _ _ _ := trivial
  leader _ _ _ := trivial
  toSelf _ _ := rfl
  numbered _ _ := rfl
  accepted _ _ _ := rfl
  sent _ _ _ _ := rfl

theorem processQueue_forget (answer : ℕ → Bool) (n : ℕ) :
    Handler.Translates (fun _ => True) (fun _ => True) forget Effect.blur
      (processQueue answer n) (processQueue answer n) := by
  intro self _
  refine ⟨?_, fun _ _ => trivial⟩
  simp only [processQueue, onSlots, Handler.zoom, flatMap_blur_handed]
  rfl

variable (answer : ℕ → Bool) (self : PaxosController)

theorem handlePaxos_forget (event : PacketIn)
    (notJoin : event.parsed.type ≠ PaxosMessage.JOIN) :
    let outcome := handlePaxos answer event self
    handlePaxos answer event self.forget =
      ⟨outcome.result, outcome.state.forget,
        outcome.effects.flatMap Effect.blur⟩ := by
  have walks := processQueue_forget answer
  have translates := viewed_forget.handlePaxos viewed_forget event notJoin rfl
    (fun _ _ _ => trivial) (fun _ => walks) (fun _ => walks)
  rw [handlePaxosBy_processQueue] at translates
  exact (translates self trivial).1

theorem pump_forget :
    let outcome := pump answer self
    pump answer self.forget =
      ⟨outcome.result, outcome.state.forget,
        outcome.effects.flatMap Effect.blur⟩ :=
  (processQueue_forget answer self.state.crnd self trivial).1

theorem flatMap_served_blur
    (rewrite : EthAddr → IPAddr → Option Bytes → Frame)
    (hosts : List (EthAddr × IPAddr × Port)) (effects : List Effect) :
    (effects.flatMap (served rewrite hosts)).flatMap Effect.blur =
      effects.flatMap Effect.blur := by
  have unseen : ∀ v, (hosts.map (delivery rewrite v)).flatMap
      Effect.blur = [] := by
    intro v
    apply List.flatMap_eq_nil_iff.mpr
    intro effect member
    obtain ⟨host, -, rfl⟩ := List.mem_map.mp member
    rfl
  rw [List.flatMap_assoc]
  apply List.flatMap_congr
  intro effect _
  cases effect with
  | handed call =>
      rw [served, List.flatMap_append]
      split
      · rw [unseen, List.nil_append]
        exact List.flatMap_singleton ..
      · exact List.flatMap_singleton ..
  | sent frame port => exact List.flatMap_singleton ..
  | toSelf type payload => exact List.flatMap_singleton ..
  | numbered seqno v => exact List.flatMap_singleton ..
  | accepted n seqno v => exact List.flatMap_singleton ..
  | command command => exact List.flatMap_singleton ..

end PaxosController

end SwitchPaxos
