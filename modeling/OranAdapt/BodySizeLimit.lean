import Mathlib.Algebra.Ring.Nat
import Mathlib.Data.List.Basic

/-!
# The limit on the size of a request

`api.app.BodySizeLimitMiddleware`: an application talks with the server it runs
in, and the middleware stands between. Within the limit nobody notices it, and
beyond it one refusal is sent, whatever an application that ends goes on to do.
-/

namespace OranAdapt.BodySizeLimit

inductive Received where
  | request (body : List UInt8) (more : Bool)
  | disconnect

def Received.size : Received → Nat
  | .request body _ => body.length
  | .disconnect => 0

inductive Sent where
  | start (status : Nat) (headers : List (String × String))
  | body (content : String) (more : Bool)

/-- What a call of an application does that ends whatever it receives. One that goes on receiving
until it is told of a disconnect is none of these: past the limit it would be given an empty end
of the body again and again. -/
inductive App where
  | returns
  | raises (failure : String)
  | receives (next : Received → App)
  | sends (message : Sent) (next : App)

inductive Event where
  | took (message : Received)
  | sent (message : Sent)

/-- An application in a server that holds these messages for it. -/
def App.run : App → (Nat → Received) → List Event × Option String
  | .returns, _ => ([], none)
  | .raises failure, _ => ([], some failure)
  | .receives next, server =>
    let rest := (next (server 0)).run fun n => server (n + 1)
    (.took (server 0) :: rest.1, rest.2)
  | .sends message next, server =>
    let rest := next.run server
    (.sent message :: rest.1, rest.2)

/-- The bytes that were taken from the server. -/
def total (events : List Event) : Nat := (events.map fun
  | .took message => message.size
  | .sent _ => 0).sum

section
variable (maxBytes : Nat)

def refusal : List Sent :=
  let content := "\x7b\"code\":\"REQUEST_TOO_LARGE\",\"message\":\"request body exceeds " ++ toString maxBytes ++
    " bytes\",\"context\":\x7b\"max_bytes\":" ++ toString maxBytes ++ "\x7d\x7d"
  [.start 413 [("content-length", toString content.utf8ByteSize), ("content-type", "application/json")], .body content false]

def refuse (next : App) : App := (refusal maxBytes).foldr .sends next

/-- Once the body is too large: nothing more is read, and what is sent is replaced by one refusal. -/
def cut : Bool → App → App
  | refused, .returns => if refused then .returns else refuse maxBytes .returns
  | _, .raises failure => .raises failure
  | refused, .receives next => cut refused (next (.request [] false))
  | refused, .sends _ next => if refused then cut true next else refuse maxBytes (cut true next)

def limit : Nat → App → App
  | _, .returns => .returns
  | _, .raises failure => .raises failure
  | seen, .sends message next => .sends message (limit seen next)
  | seen, .receives next => .receives fun message =>
    if maxBytes < seen + message.size then cut maxBytes false (next (.request [] false))
    else limit (seen + message.size) (next message)

inductive Declared where
  | fits
  /-- beyond the limit, or no number at all -/
  | tooLarge
  /-- more digits than `int` reads -/
  | unreadable

def declares : Option (List Char) → Declared
  | none => .fits
  | some text =>
    if text = [] ∨ text.any (fun c => !c.isDigit) = true then .tooLarge
    else if 4300 < text.length then .unreadable
    else if maxBytes < text.foldl (fun n c => 10 * n + (c.toNat - '0'.toNat)) 0 then .tooLarge
    else .fits

/-- `BodySizeLimitMiddleware.__call__` of an HTTP request with this `content-length` -/
def bodySizeLimit (contentLength : Option (List Char)) (app : App) : App :=
  match declares maxBytes contentLength with
  | .fits => limit maxBytes 0 app
  | .tooLarge => refuse maxBytes .returns
  | .unreadable => .raises "ValueError"

/-! ## With the limit and without -/

/-- The run under the limit: the plain run, or as much of it as fits and one refusal, unless the application
fails before it. -/
def Limited (seen : Nat) (plain limited : List Event × Option String) : Prop :=
  seen + total plain.1 ≤ maxBytes ∧ limited = plain ∨
    ∃ before message after rest, plain.1 = before ++ .took message :: after ∧ seen + total before ≤ maxBytes ∧
      maxBytes < seen + total before + message.size ∧ limited.1 = before ++ .took message :: rest ∧
        (rest = (refusal maxBytes).map .sent ∨ rest = [] ∧ limited.2.isSome = true)

variable {maxBytes}

theorem run_refuse (next : App) (server : Nat → Received) : (refuse maxBytes next).run server =
    ((refusal maxBytes).map .sent ++ (next.run server).1, (next.run server).2) := rfl

theorem cut_quiet (app : App) (server : Nat → Received) : ((cut maxBytes true app).run server).1 = [] := by
  induction app with
  | returns => rfl
  | raises failure => rfl
  | receives next ih => exact ih _
  | sends message next ih => exact ih

theorem cut_refuses (app : App) (server : Nat → Received) :
    ((cut maxBytes false app).run server).1 = (refusal maxBytes).map .sent ∨
      ((cut maxBytes false app).run server).1 = [] ∧ ((cut maxBytes false app).run server).2.isSome = true := by
  induction app with
  | returns => exact .inl rfl
  | raises failure => exact .inr ⟨rfl, rfl⟩
  | receives next ih => exact ih _
  | sends message next ih =>
    left
    change ((refuse maxBytes (cut maxBytes true next)).run server).1 = _
    rw [run_refuse, cut_quiet, List.append_nil]

theorem Limited.cons {e : Event} {seen : Nat} {plain limited : List Event × Option String}
    (h : Limited maxBytes (seen + total [e]) plain limited) :
    Limited maxBytes seen (e :: plain.1, plain.2) (e :: limited.1, limited.2) := by
  have hsum : ∀ events, total (e :: events) = total [e] + total events := fun events => by simp [total]
  rcases h with ⟨hle, rfl⟩ | ⟨before, message, after, rest, hplain, hle, hlt, hlimited, hrest⟩
  · exact .inl ⟨by rw [hsum]; omega, rfl⟩
  · exact .inr ⟨e :: before, message, after, rest, congrArg (e :: ·) hplain, by rw [hsum]; omega, by rw [hsum]; omega,
      congrArg (e :: ·) hlimited, hrest⟩

theorem limit_run (app : App) : ∀ (seen : Nat) (server : Nat → Received), seen ≤ maxBytes →
    Limited maxBytes seen (app.run server) ((limit maxBytes seen app).run server) := by
  induction app with
  | returns => exact fun _ _ h => .inl ⟨h, rfl⟩
  | raises failure => exact fun _ _ h => .inl ⟨h, rfl⟩
  | sends message next ih => exact fun seen server h => Limited.cons (ih seen server h)
  | receives next ih =>
    intro seen server h
    unfold limit App.run
    dsimp only
    split
    · rename_i hlt
      exact .inr ⟨[], server 0, _, _, rfl, h, hlt, rfl, cut_refuses _ _⟩
    · rename_i hle
      exact Limited.cons (ih (server 0) (seen + (server 0).size) _ (Nat.le_of_not_lt hle))

/-- Whatever an application that ends and a client do: within the limit the middleware changes
nothing, and where the body passes it nothing more is read, nothing more is passed on, and one
refusal is sent unless the application fails before. -/
theorem bodySizeLimit_run (contentLength : Option (List Char)) (app : App) (server : Nat → Received) :
    match declares maxBytes contentLength with
    | .fits => Limited maxBytes 0 (app.run server) ((bodySizeLimit maxBytes contentLength app).run server)
    | .tooLarge => (bodySizeLimit maxBytes contentLength app).run server = ((refusal maxBytes).map .sent, none)
    | .unreadable => (bodySizeLimit maxBytes contentLength app).run server = ([], some "ValueError") := by
  unfold bodySizeLimit
  cases declares maxBytes contentLength with
  | fits => exact limit_run app 0 server (Nat.zero_le _)
  | tooLarge => rfl
  | unreadable => rfl

end

end OranAdapt.BodySizeLimit
