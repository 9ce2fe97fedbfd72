import SupervisorApi.Endpoint.Catalog
import SupervisorApi.Http.Reply
import SupervisorApi.Program.Files
import SupervisorApi.Program.Log

/-!
Programs that talk to the Supervisor, to files and to a person, as trees of what they do next, and
their runs against replies and files that are given.
-/

set_option autoImplicit false

namespace SupervisorApi

inductive Program where
  | ended (failure : Option String)
  | waiting
  | print (line : String) (next : Program)
  | report (r : Report) (next : Program)
  | call (c : Client) (s : Session) (call : Call) (next : Exchange Response → Program)
  | load (path : String) (next : Except FileFault (List Arrival) → Program)
  | create (path : String) (next : Except FileFault Unit → Program)
  | append (path : String) (data : Bytes) (next : Except FileFault Unit → Program)

namespace Program

def fail (message : String) : Program :=
  .ended (some message)

def printAll (lines : List String) (next : Program) : Program :=
  lines.foldr .print next

def awaitThen {α : Type} (x : Awaited α) (next : α → Program) : Program :=
  match x with
  | .now a => next a
  | .never => .waiting

def ask (e : Endpoint) (c : Client) (s : Session) (arguments : Arguments) (v : e.sends.Val)
    (next : Session → Except ApiError e.holds.Val → Program) : Program :=
  match e.call arguments v with
  | .error err => next s (.error err)
  | .ok asked =>
    .call c s asked fun x =>
      awaitThen x.result fun r => next x.session (r.bind fun response => e.holds.take response)

def need (e : Endpoint) (c : Client) (s : Session) (arguments : Arguments) (v : e.sends.Val)
    (next : Session → e.holds.Val → Program) : Program :=
  ask e c s arguments v fun s r =>
    match r with
    | .ok a => next s a
    | .error err => fail err.display

def withClient (environment : String → Option String)
    (adjust : ClientSettings → ClientSettings) (next : Client → Session → Program) : Program :=
  match (ClientSettings.ofEnvironment environment).bind fun settings => (adjust settings).build with
  | .ok (client, session) => next client session
  | .error e => fail e.message

end Program

structure Scene where
  around : Surroundings
  answers : List (Method → Reaction)
  files : Files

structure World where
  around : Surroundings
  replies : List Reply
  files : Files

def World.scene (w : World) : Scene :=
  ⟨w.around, w.replies.map Reply.reaction, w.files⟩

structure Ended where
  output : List (Sum String Report)
  failure : Awaited (Option String)
  files : Files
  requests : List Request

namespace Ended

def shown (f : LogFilter) (reports : List Report) : List (Sum String Report) :=
  (reports.filter f.shows).map .inr

def after (output : List (Sum String Report)) (requests : List Request) (e : Ended) : Ended :=
  { e with output := output ++ e.output, requests := requests ++ e.requests }

@[simp] theorem failure_after (output : List (Sum String Report)) (requests : List Request)
    (e : Ended) : (e.after output requests).failure = e.failure :=
  rfl

@[simp] theorem files_after (output : List (Sum String Report)) (requests : List Request)
    (e : Ended) : (e.after output requests).files = e.files :=
  rfl

end Ended

namespace Scene

-- How the next request is answered. When there are no more answers, it is the standard one.
def reaction (w : Scene) : Method → Reaction :=
  w.answers.headD Reply.standard.reaction

def following {α : Type} (w : Scene) (x : Exchange α) : Scene :=
  if x.request.isSome then { w with answers := w.answers.drop 1 } else w

end Scene

namespace Program

def written (next : Except FileFault Unit → Scene → Ended) (w : Scene) :
    Except FileFault Files → Ended
  | .ok files => next (.ok ()) { w with files := files }
  | .error e => next (.error e) w

def runIn (f : LogFilter) : Program → Scene → Ended
  | .ended failure, w => ⟨[], .now failure, w.files, []⟩
  | .waiting, w => ⟨[], .never, w.files, []⟩
  | .print line next, w => (next.runIn f w).after [.inl line] []
  | .report r next, w => (next.runIn f w).after (Ended.shown f [r]) []
  | .call c s asked next, w =>
    let x := c.call w.around s asked (w.reaction asked.method)
    ((next x).runIn f (w.following x)).after (Ended.shown f (x.events.map (.ofEvent asked.span)))
      x.request.toList
  | .load path next, w => (next (w.files.load path)).runIn f w
  | .create path next, w => written (fun r => (next r).runIn f) w (w.files.create path)
  | .append path data next, w => written (fun r => (next r).runIn f) w (w.files.append path data)

def run (f : LogFilter) (p : Program) (w : World) : Ended :=
  p.runIn f w.scene

end Program

end SupervisorApi
