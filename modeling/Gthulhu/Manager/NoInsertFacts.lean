/-
The parts of the services that store nothing new. Most only read, talk to
decision makers and mark intents as sent (`Call.Light`, `light_*`); the
operations that delete also delete (`Call.NoInsert`). Whatever such calls
keep, these parts keep.
-/
import Gthulhu.Manager.Operations
import Gthulhu.Manager.ScopeFacts

namespace Gthulhu.Manager

open Lib Prog

/-- A call that inserts no resource and replaces none but to change an intent's state. -/
def Call.NoInsert : Call → Prop
  | .insertStrategyAndIntents _ _ | .insertIntents _ | .updateStrategy _ | .insertNodePolicyAndIntents _ _
  | .insertNodeIntents _ | .updateNodePolicy _ => False
  | _ => True

/-- One that deletes nothing either. -/
def Call.Light : Call → Prop
  | .insertStrategyAndIntents _ _ | .insertIntents _ | .updateStrategy _ | .insertNodePolicyAndIntents _ _
  | .insertNodeIntents _ | .updateNodePolicy _ | .deleteStrategy _ | .deleteNodePolicy _ | .deleteIntents _
  | .deleteNodeIntents _ | .deleteIntentsByStrategyID _ | .deleteNodeIntentsByPolicyID _ => False
  | _ => True

theorem Call.Light.noInsert {call : Call} (h : call.Light) : call.NoInsert := by
  cases call <;> first | exact h.elim | exact trivial

/-- Programs of such calls. -/
abbrev Svc.NoInsert {α : Type} (x : Svc α) : Prop := Makes (fun _ => True) Call.NoInsert (fun _ => True) x

abbrev Svc.Light {α : Type} (x : Svc α) : Prop := Makes (fun _ => True) Call.Light (fun _ => True) x

/-! ## Light parts -/

section

variable {α : Type} {go : SliceSort}

theorem Call.Harmless.light (call : Call) (h : call.Harmless) : call.Light := by
  cases call <;> first | exact h.elim | exact trivial

theorem Call.Harmless.noInsert (call : Call) (h : call.Harmless) : call.NoInsert := (Call.Harmless.light call h).noInsert

theorem light_call {call} (h : call.Light) : (Svc.call call).Light := makes_any h

theorem noInsert_call {call} (h : call.NoInsert) : (Svc.call call).NoInsert := makes_any h

theorem light_parse {message : String} {parsed : Except Error α} : (Svc.parse message parsed).Light :=
  makes_parse fun _ _ => trivial

/-- The calls of a channel are light. -/
structure Channel.Light (ch : Channel α) : Prop where
  getRoot : ∀ dm, (ch.getRoot dm).Light
  clear : ∀ dm, (ch.clear dm).Light
  send : ∀ dm intents, (ch.send dm intents).Light
  markSent : ∀ ids, (ch.markSent ids).Light

theorem light_podChannel : (podChannel go).Light :=
  ⟨fun _ => light_call trivial, fun _ => light_call trivial, fun _ _ => light_call trivial, fun _ => light_call trivial⟩

theorem light_nodeChannel : (nodeChannel go).Light :=
  ⟨fun _ => light_call trivial, fun _ => light_call trivial, fun _ _ => light_call trivial, fun _ => light_call trivial⟩

theorem Channel.Light.deliver {ch : Channel α} (hch : ch.Light)
    {dms intents sendText markText} : (deliver ch dms intents sendText markText).Light :=
  makes_deliver trivial hch.send fun ids _ => hch.markSent ids

theorem Channel.Light.resyncDMs {ch : Channel α} (hch : ch.Light) {dms intents} :
    (resyncDMs ch dms intents).Light :=
  makes_resyncDMs hch.getRoot hch.clear hch.send fun ids _ => hch.markSent ids

theorem light_sendNodeIntentsToDMs {intents} : (sendNodeIntentsToDMs go intents).Light := by
  unfold sendNodeIntentsToDMs
  refine makes_ite (fun _ => makes_pure trivial) fun _ => Makes.bind (light_call trivial) fun dms _ => ?_
  exact makes_ite (fun _ => makes_pure trivial) fun _ => light_nodeChannel.deliver

theorem light_resyncIntentsToDMs : (resyncIntentsToDMs go).Light := by
  unfold resyncIntentsToDMs
  refine Makes.bind (light_call trivial) fun dms _ => makes_ite (fun _ => makes_pure trivial) fun _ => ?_
  exact Makes.bind (light_call trivial) fun intents _ => light_podChannel.resyncDMs

theorem light_resyncNodeIntentsToDMs : (resyncNodeIntentsToDMs go).Light := by
  unfold resyncNodeIntentsToDMs
  refine Makes.bind (light_call trivial) fun intents _ => makes_ite (fun _ => makes_pure trivial) fun _ => ?_
  refine Makes.bind (light_call trivial) fun dms _ => makes_ite (fun _ => makes_pure trivial) fun _ => ?_
  exact light_nodeChannel.resyncDMs

theorem Svc.Light.noInsert {x : Svc α} (h : x.Light) : x.NoInsert := h.weaken fun _ => Call.Light.noInsert

end

end Gthulhu.Manager
