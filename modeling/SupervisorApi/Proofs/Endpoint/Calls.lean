import Mathlib.Tactic.Common
import SupervisorApi.Endpoint.Catalog
import SupervisorApi.Proofs.Path.Segments

set_option autoImplicit false

namespace SupervisorApi

structure Call.Alike (c c' : Call) : Prop where
  path : c'.path = c.path
  method : c'.method = c.method
  kind : c'.kind = c.kind
  headers : c'.headers = c.headers

namespace Sends

variable {c c' : Call}

theorem alike_refl (c : Call) : c.Alike c :=
  ⟨rfl, rfl, rfl, rfl⟩

theorem alike_of_map {f : Members → Call} {r : Except ApiError Members}
    (alike : ∀ ms, c.Alike (f ms)) (applied : r.map f = .ok c') : c.Alike c' := by
  cases r with
  | error _ => cases applied
  | ok ms =>
    cases applied
    exact alike ms

theorem alike_withObject (c : Call) (ms : Members) : c.Alike (withObject c ms) :=
  ⟨rfl, rfl, rfl, rfl⟩

theorem alike_untilDone (background : Option (Field Bool)) (c : Call) :
    c.Alike (untilDone background c) := by
  unfold untilDone
  split
  · exact alike_refl c
  · exact ⟨rfl, rfl, rfl, rfl⟩

theorem alike_job (background : Option (Field Bool)) (c : Call) (ms : Members) :
    c.Alike (withObject (untilDone background c) ms) := by
  obtain ⟨path, method, kind, headers⟩ := alike_untilDone background c
  exact ⟨path, method, kind, headers⟩

theorem alike_upload (u : Upload) (options : Option UploadOptions) (c : Call) :
    c.Alike (uploadCall u options c) := by
  cases options <;> exact ⟨rfl, rfl, rfl, rfl⟩

theorem alike_of_apply {arguments : Arguments} {x : Sends} {v : x.Val}
    (applied : x.apply arguments c v = .ok c') : c.Alike c' := by
  cases x with
  | nothing => cases applied; exact alike_refl c
  | model s | changes s | named s member p =>
    exact alike_of_map (fun ms => alike_withObject c _) applied
  | optional s | optionalChanges s =>
    cases v with
    | none => cases applied; exact alike_refl c
    | some v => exact alike_of_map (alike_withObject c) applied
  | job s background => exact alike_of_map (alike_job _ c) applied
  | optionalJob s background =>
    cases v with
    | none => cases applied; exact alike_untilDone none c
    | some v => exact alike_of_map (alike_job _ c) applied
  | object => cases applied; exact alike_withObject c v
  | bytes => cases applied; exact ⟨rfl, rfl, rfl, rfl⟩
  | file => cases applied; exact alike_upload v.1 v.2 c
  | source => cases applied; exact ⟨rfl, rfl, rfl, rfl⟩

end Sends

namespace Endpoint

variable {e : Endpoint} {arguments : Arguments}

theorem path_of_call {v : e.sends.Val} {call : Call} (made : e.call arguments v = .ok call) :
    call.path = e.pathText arguments :=
  (Sends.alike_of_apply made).path

theorem request_of_exchange {v : e.sends.Val} {call : Call}
    (made : e.call arguments v = .ok call) (c : Client) (around : Surroundings) (s : Session)
    (reaction : Reaction) :
    (e.exchange c around s arguments v reaction).request =
      (c.call around s call reaction).request := by
  simp only [exchange, made, Exchange.andThen]

theorem call_of_request {v : e.sends.Val} {c : Client} {around : Surroundings} {s : Session}
    {reaction : Reaction} {r : Request}
    (sent : (e.exchange c around s arguments v reaction).request = some r) :
    ∃ call, e.call arguments v = .ok call ∧
      (c.call around s call reaction).request = some r := by
  unfold exchange at sent
  split at sent
  next => cases sent
  next call made => exact ⟨call, made, sent⟩

end Endpoint

end SupervisorApi
