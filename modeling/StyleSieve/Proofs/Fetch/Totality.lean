import Mathlib.Control.Monad.Basic
import StyleSieve.Fetch.Fetching
import StyleSieve.Proofs.Fallible
import StyleSieve.Proofs.Text.Utf8

/-!
# Outcomes of fetching

Fetching comes to a text, to a report with the location that was asked for, or to a defect.  An
exchange with a network is followed from target to target, and each outcome is told by where the
last target is and what is answered there.
-/

namespace StyleSieve.Fetch

open Location

section Exchanges

variable {world : World} {target next last : Target} {reply : Reply} {remaining count : Nat}

/-- Whether what is answered about a target leads to another target. -/
def Redirects (world : World) (target next : Target) : Prop :=
  ∃ response place content, ask world.network target = .response response ∧
    response.redirection? = some place ∧ redirected target place = .ok next ∧
    world.codecs.content response = .ok content

/-- Whether a number of redirections lead from a target to the last one. -/
inductive Leads (world : World) : Nat → Target → Target → Prop where
  | here {target : Target} : Leads world 0 target target
  | follow {count : Nat} {target next last : Target} (redirects : Redirects world target next)
      (leads : Leads world count next last) : Leads world (count + 1) target last

/-- How an exchange ends at a target if some redirections may still be followed: with the answer
to be had there, without any, on the way to where the answer points, with an answer whose content
cannot be had, or since it leads on when no redirections remain. -/
inductive EndsAt (world : World) (remaining : Nat) (target : Target) : Reply → Prop where
  | answered {response : Response} {content : List UInt8}
      (asked : ask world.network target = .response response)
      (final : response.redirection? = none)
      (had : world.codecs.content response = .ok content) :
      EndsAt world remaining target (.response { response with body := content })
  | unanswered {reply : Reply} (asked : ask world.network target = reply)
      (silent : ∀ response, reply ≠ .response response) : EndsAt world remaining target reply
  | astray {response : Response} {place : String} {reply : Reply}
      (asked : ask world.network target = .response response)
      (points : response.redirection? = some place)
      (missed : redirected target place = .error reply) : EndsAt world remaining target reply
  | garbled {response : Response} {report : String}
      (asked : ask world.network target = .response response)
      (onward : ∀ place ∈ response.redirection?, (redirected target place).isOk = true)
      (lost : world.codecs.content response = .error report) :
      EndsAt world remaining target (.trouble .decodingError report)
  | exhausted {next : Target} (spent : remaining = 0) (redirects : Redirects world target next) :
      EndsAt world remaining target
        (.trouble .tooManyRedirects "Exceeded maximum allowed redirects.")

theorem visit_of_redirects (redirects : Redirects world target next) :
    visit world target = .ok next := by
  obtain ⟨response, place, content, asked, points, found, had⟩ := redirects
  simp only [visit, readContent, asked, points, found, had]
  rfl

theorem exchange_of_visit (ends : visit world target = .error reply) :
    exchange world remaining target = (reply, [String.ofList target.write]) := by
  simp only [exchange.eq_def world remaining, ends]

/-- An exchange that ends at its target asks for nothing else. -/
theorem exchange_of_endsAt (ends : EndsAt world remaining target reply) :
    exchange world remaining target = (reply, [String.ofList target.write]) := by
  cases ends with
  | answered asked final had =>
      refine exchange_of_visit ?_
      simp only [visit, readContent, asked, final, had]
      rfl
  | unanswered asked silent =>
      refine exchange_of_visit ?_
      rw [visit, asked]
      cases reply with
      | response response => exact absurd rfl (silent response)
      | trouble kind text => rfl
      | defect defect => rfl
  | astray asked points missed =>
      refine exchange_of_visit ?_
      simp only [visit, asked, points, missed]
      rfl
  | @garbled response report asked onward lost =>
      refine exchange_of_visit ?_
      simp only [visit, readContent, asked, lost]
      cases points : response.redirection? with
      | none => rfl
      | some place =>
          cases found : redirected target place with
          | error ending =>
              have leads := onward place points
              rw [found] at leads
              cases leads
          | ok next =>
              simp only [found]
              rfl
  | exhausted spent redirects =>
      simp only [spent, exchange.eq_def world 0, visit_of_redirects redirects]

/-- An exchange ends at its target or leads on to another one. -/
theorem endsAt_or_redirects (world : World) (remaining : Nat) (target : Target) :
    (∃ reply, EndsAt world remaining target reply) ∨
      remaining ≠ 0 ∧ ∃ next, Redirects world target next := by
  cases asked : ask world.network target with
  | trouble kind text => exact .inl ⟨_, .unanswered asked nofun⟩
  | defect defect => exact .inl ⟨_, .unanswered asked nofun⟩
  | response response =>
      cases points : response.redirection? with
      | none =>
          cases had : world.codecs.content response with
          | error report => exact .inl ⟨_, .garbled asked (by simp [points]) had⟩
          | ok content => exact .inl ⟨_, .answered asked points had⟩
      | some place =>
          cases found : redirected target place with
          | error ending => exact .inl ⟨_, .astray asked points found⟩
          | ok next =>
              cases had : world.codecs.content response with
              | error report =>
                  refine .inl ⟨_, .garbled asked (fun other isPlace => ?_) had⟩
                  cases points.symm.trans isPlace
                  rw [found]
                  rfl
              | ok content =>
                  have redirects : Redirects world target next :=
                    ⟨response, place, content, asked, points, found, had⟩
                  by_cases spent : remaining = 0
                  · exact .inl ⟨_, .exhausted spent redirects⟩
                  · exact .inr ⟨spent, next, redirects⟩

/-- Whether the answer to a request is a response after all redirections, as it is when its
content has been had. -/
def Answers (world : World) (first : Target) (response : Response) : Prop :=
  ∃ count last sent content, count ≤ redirectionLimit ∧ Leads world count first last ∧
    ask world.network last = .response sent ∧ sent.redirection? = none ∧
    world.codecs.content sent = .ok content ∧ response = { sent with body := content }

/-- Whether steps that may miss never end with a response. -/
def NeverResponds {α : Type} (steps : Except Reply α) : Prop :=
  ∀ response, steps ≠ .error (.response response)

theorem NeverResponds.bind {α β : Type} {steps : Except Reply α} {later : α → Except Reply β}
    (silent : NeverResponds steps) (after : ∀ value, NeverResponds (later value)) :
    NeverResponds (steps >>= later) := by
  intro response responds
  cases steps with
  | error reply => exact silent response (congrArg Except.error (Except.error.inj responds))
  | ok value => exact after value response responds

end Exchanges

section Outcomes

variable {world : World} {client : Client} {location : String}

/-- Whether a response comes at a location: the answer to a request for it, after all
redirections. -/
def Comes (world : World) (client : Client) (location : String) (response : Response) : Prop :=
  isUrl location = true ∧ client.requestHeaders.areAscii = true ∧
    ∃ target, Target.parse location.toList = .ok target ∧ Answers world target.rooted response

/-- Whether a text is served at a location: the response that comes there has a status of some
kind, and its content spells the text. -/
def IsServed (world : World) (client : Client) (location : String) (kind : Nat → Prop)
    (text : String) : Prop :=
  ∃ response, Comes world client location response ∧ kind response.status ∧
    world.codecs.text response response.body = .ok text

section

variable {codecs : Codecs}

end

theorem IsServed.imp {first second : Nat → Prop} {text : String}
    (implies : ∀ status, first status → second status)
    (served : IsServed world client location first text) :
    IsServed world client location second text := by
  obtain ⟨response, comes, fine, spelled⟩ := served
  exact ⟨response, comes, implies _ fine, spelled⟩

/-- A file `p.css`, a file `k.css` that may not be read, and a directory `l` that may not be
searched; and a network in which `q.css` has moved to `p.css`, `r.css` is said not to be modified,
`t.css` comes in a character set that spells no texts, and nothing else is found. -/
def smallWorld : World where
  directory := "/home"
  files := fun path =>
    if path = "k.css" then .closedFile
    else if path = "l/m.css" then .closedParent
    else FileTree.entry [(["p.css".toList], Text.encodeUtf8 "a\r\nb")] path
  network := fun address =>
    if address = "http://a.b/p.css" then .response { body := Text.encodeUtf8 "c" }
    else if address = "http://a.b/q.css" then
      .response { status := 302, headers := [("Location", "p.css")] }
    else if address = "http://a.b/r.css" then
      .response { status := 304, body := Text.encodeUtf8 "d" }
    else if address = "http://a.b/t.css" then
      .response { headers := [("Content-Type", "text/css; charset=base64")],
                  body := Text.encodeUtf8 "e" }
    else .response { status := 404 }

end Outcomes

end StyleSieve.Fetch
