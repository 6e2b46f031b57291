/-
Why a login is refused.

An attempt is five steps, and the client is told of the one that failed with libpam's text for the code it returned.
`results` reads the outcomes of the steps off the calls that were made: `Blames cs cause` says that the step `cause` is
the one that failed, and that every step before it went well (a service that cannot be started is followed by the
fallback, so a start may fail and be made good).

`attempt_explained`: the message of every attempt that fails blames the step that failed.
-/
import Miqudm.Daemon.Login

namespace Miqudm

open Miqudm.Core Prog

/-- the five steps -/
inductive Cause where
  | start
  | authenticate
  | account
  | credentials
  | session
deriving DecidableEq, Repr

/-- what the client is told before libpam's text -/
def Cause.text : Cause → Str
  | .start => lit "PAM initialization error: "
  | .authenticate => lit "Authentication failed: "
  | .account => lit "Account check failed: "
  | .credentials => lit "Failed to establish credentials: "
  | .session => lit "Failed to open session: "

/-- the step a call decides, and how; an accepted conversation decides nothing -/
def PamCall.result? : PamCall → Option (Cause × Bool)
  | .start _ _ _ handle => some (.start, handle.isSome)
  | .setConv _ _ ok => if ok then none else some (.authenticate, false)
  | .run (.authenticate _) _ ok => some (.authenticate, ok)
  | .run .acctMgmt _ ok => some (.account, ok)
  | .run .establishCred _ ok => some (.credentials, ok)
  | .run .openSession _ ok => some (.session, ok)
  | _ => none

def results (cs : List PamCall) : List (Cause × Bool) := cs.filterMap PamCall.result?

@[simp] theorem results_nil : results [] = [] := rfl

@[simp] theorem results_cons (c : PamCall) (cs : List PamCall) :
    results (c :: cs) = c.result?.toList ++ results cs := by
  rw [results, List.filterMap_cons]
  cases c.result? <;> rfl

@[simp] theorem results_append (cs cs' : List PamCall) : results (cs ++ cs') = results cs ++ results cs' :=
  List.filterMap_append

/-- the steps went well, but for a start that was made good -/
def Unblamed (rs : List (Cause × Bool)) : Prop := ∀ r ∈ rs, r.2 = true ∨ r.1 = .start

theorem Unblamed.append {rs rs' : List (Cause × Bool)} (h : Unblamed rs) (h' : Unblamed rs') : Unblamed (rs ++ rs') :=
  List.forall_mem_append.2 ⟨h, h'⟩

/-- the step `cause` failed, and no other one -/
def Blames (cs : List PamCall) (cause : Cause) : Prop :=
  ∃ before, results cs = before ++ [(cause, false)] ∧ Unblamed before

/-- after calls that passed, those that blame a step still do -/
theorem Blames.after {cs cs' : List PamCall} {cause : Cause} (h : Blames cs' cause) (hcs : Unblamed (results cs)) :
    Blames (cs ++ cs') cause := by
  obtain ⟨before, hresults, hbefore⟩ := h
  exact ⟨results cs ++ before, by rw [results_append, hresults, List.append_assoc], hcs.append hbefore⟩

section Steps

variable {E : PamEnv} {self : PamAuth} {p : Libpam} {h : ℕ}

/-- what a step is known to do: it passes on the handle `h`, or it is to blame for the text of a failing code -/
def Judged (E : PamEnv) (cause : Cause) (K : PamAuth → Prop) (cs : List PamCall) (r : Bool × PamAuth) : Prop :=
  (r.1 = true → Unblamed (results cs) ∧ K r.2) ∧
    (r.1 = false → Blames cs cause ∧ ∃ ret, ret ≠ pamSuccess ∧ r.2.errorMessage = E.strerror ret)

theorem start_judged (username serviceName : Str) : Sat (PamAuth.start E {} username serviceName) p
    (fun l r _ => Judged E .start (fun pam => pam.pamHandle.isSome) (calls l) r) (fun _ _ _ => True) := by
  have hnew : ({} : PamAuth).end_ E = pure {} := PamAuth.end_none rfl
  simp only [PamAuth.start, hnew, PamAuth.startHandle, pamStart, sat_bind, sat_get, sat_ite, sat_act, sat_pure]
  have starts : ∀ {cs : List PamCall} (bs : List Bool), results cs = bs.map (Prod.mk .start) → Unblamed (results cs) := by
    intro cs bs hcs r hr
    rw [hcs] at hr
    obtain ⟨b, -, rfl⟩ := List.mem_map.1 hr
    exact Or.inr rfl
  refine ⟨fun hret => ⟨fun h => absurd hret h, fun _ => ⟨fun h => absurd hret h, fun _ => ?_⟩⟩,
    fun hret => ⟨fun _ => ⟨fun hret' => ⟨fun h => absurd hret' h, fun _ => ?_⟩, fun hret' => ⟨fun _ => ?_, fun h => ?_⟩⟩,
      fun h => absurd hret h⟩⟩
  · exact ⟨fun _ => ⟨starts [true] rfl, rfl⟩, by simp⟩
  · exact ⟨fun _ => ⟨starts [false, true] rfl, rfl⟩, by simp⟩
  · exact ⟨by simp, fun _ => ⟨⟨[(.start, false)], rfl, fun r hr => Or.inr (by rw [List.mem_singleton.1 hr])⟩, _, hret', rfl⟩⟩
  · exact absurd hret' h

theorem authenticate_judged (hh : self.pamHandle = some h) (password : Str) :
    Sat (self.authenticate E password) p
      (fun l r _ => Judged E .authenticate (fun pam => pam.pamHandle = some h) (calls l) r) (fun _ _ _ => True) := by
  simp only [PamAuth.authenticate, hh, newUserData, pamSetConv, pamRun, wipeUserData, freeUserData, sat_bind, sat_get,
    sat_act, sat_pure, sat_ite, sat_when]
  have blamed : ∀ {cs : List PamCall}, results cs = [(.authenticate, false)] → Blames cs .authenticate :=
    fun hcs => ⟨[], hcs, by simp [Unblamed]⟩
  have passed : ∀ {cs : List PamCall}, results cs = [(.authenticate, true)] → Unblamed (results cs) := by
    intro cs hcs r hr
    rw [hcs, List.mem_singleton] at hr
    exact Or.inl (by rw [hr])
  have refused : ∀ d, (PamCall.setConv h d false).result? = some (.authenticate, false) := fun _ => rfl
  have accepted : ∀ d, (PamCall.setConv h d true).result? = none := fun _ => rfl
  have ran : ∀ answer ok, (PamCall.run (.authenticate answer) h ok).result? = some (.authenticate, ok) := fun _ _ => rfl
  have quiet : ∀ d, (PamCall.born d).result? = none ∧ (PamCall.wiped d).result? = none ∧
      (PamCall.died d).result? = none := fun _ => ⟨rfl, rfl, rfl⟩
  refine ⟨fun hret => ⟨by simp, fun _ => ⟨blamed ?_, _, hret, rfl⟩⟩, fun hconv => ?_⟩
  · simp [hret, refused, quiet]
  · rw [not_not] at hconv
    simp only [hconv, decide_true, if_true]
    generalize (Libpam.answer _ h) = answer
    refine ⟨fun _ => ⟨fun hret => ⟨by simp, fun _ => ⟨blamed ?_, _, hret, rfl⟩⟩,
      fun hret => ⟨fun _ => ⟨passed ?_, hh⟩, by simp⟩⟩,
      fun _ => ⟨fun hret => ⟨by simp, fun _ => ⟨blamed ?_, _, hret, rfl⟩⟩, fun hret => ⟨fun _ => ⟨passed ?_, hh⟩, by simp⟩⟩⟩
    · simp [accepted, ran, quiet, hret]
    · simp [accepted, ran, quiet, not_not.1 hret]
    · simp [accepted, ran, quiet, hret]
    · simp [accepted, ran, quiet, not_not.1 hret]

theorem runStep_judged (hh : self.pamHandle = some h) {fn : PamFn} {cause : Cause}
    (hfn : ∀ ok, (PamCall.run fn h ok).result? = some (cause, ok)) {noted : PamAuth} (hnoted : noted.pamHandle = some h) :
    Sat (self.runStep E fn noted) p (fun l r _ => Judged E cause (fun pam => pam.pamHandle = some h) (calls l) r)
      (fun _ _ _ => True) := by
  simp only [PamAuth.runStep, hh, pamRun, sat_bind, sat_get, sat_act, sat_pure, sat_ite]
  refine ⟨fun hret => ⟨by simp, fun _ => ⟨⟨[], ?_, by simp [Unblamed]⟩, _, hret, rfl⟩⟩,
    fun hret => ⟨fun _ => ⟨?_, hnoted⟩, by simp⟩⟩
  · simp [hfn, hret]
  · intro r hr
    simp only [calls_nil, calls_cons, List.nil_append, List.append_nil, results_cons, hfn, results_nil,
      Option.toList_some, List.mem_singleton] at hr
    exact Or.inl (by simp [hr, not_not.1 hret])

end Steps

section Attempt

variable (E : Env)

/-- a failure is explained by a step, and by the code it returned -/
def Explained (x : Sys (Option Str × PamAuth)) (s : St) : Prop := Sat x s
  (fun l r _ => ∀ message, r.1 = some message → ∃ cause ret, ret ≠ pamSuccess ∧
    message = cause.text ++ E.pam.strerror ret ∧ Blames (pamCalls (events l)) cause)
  (fun _ _ _ => False)

theorem explained_step (cause : Cause) {step : PamM (Bool × PamAuth)} {next : PamAuth → Sys (Option Str × PamAuth)}
    {K : PamAuth → Prop} {s : St} (hstep : Sat step s.pam (fun l r _ => Judged E.pam cause K (calls l) r) fun _ _ _ => True)
    (hnext : ∀ pam t, K pam → Explained E (next pam) t) : Explained E (tryStep E step cause.text next) s := by
  refine (sat_bind _ _).2 (Sat.mono (onPam_spec (Q := fun cs r _ => Judged E.pam cause K cs r) hstep) ?_ fun _ _ _ h => h)
  intro l r t hjudged
  rcases r with ⟨ok, pam⟩
  cases ok with
  | false =>
    obtain ⟨hblames, ret, hret, hmessage⟩ := hjudged.2 rfl
    intro message hr
    cases hr
    rw [List.append_nil]
    exact ⟨cause, ret, hret, congrArg _ hmessage, hblames⟩
  | true =>
    obtain ⟨hpassed, hK⟩ := hjudged.1 rfl
    refine Sat.mono (hnext pam t hK) (fun l' r' _ h message hr => ?_) fun _ _ _ h => h
    obtain ⟨cause', ret, hret, hmessage, hblames⟩ := h message hr
    refine ⟨cause', ret, hret, hmessage, ?_⟩
    rw [events_append, pamCalls_append]
    exact hblames.after hpassed

/-- a part that decides no step -/
def Undecided {α : Type} (x : Sys α) : Prop :=
  ∀ s, Sat x s (fun l _ _ => results (pamCalls (events l)) = []) (fun _ _ _ => False)

theorem undecided_bind {α β : Type} {x : Sys β} {f : β → Sys α} (hx : Undecided x) (hf : ∀ b, Undecided (f b)) :
    Undecided (x >>= f) := by
  refine fun s => (sat_bind x f).2 (Sat.mono (hx s) (fun l b t hl => ?_) fun _ _ _ h => h)
  refine Sat.mono (hf b t) (fun l' _ _ hl' => ?_) fun _ _ _ h => h
  rw [events_append, pamCalls_append, results_append, hl, hl']
  rfl

theorem setLoginEnv_undecided (req : IpcMessage) (pam : PamAuth) : Undecided (setLoginEnv E req pam) := by
  have set : ∀ name value, Undecided (onPam E (pam.setEnv E.pam name value)) := by
    intro name value s
    refine onPam_spec (Q := fun cs _ _ => results cs = []) ?_
    unfold PamAuth.setEnv
    split
    · rfl
    · simp [pamPutenv, sat_bind, PamCall.result?]
  refine fun s => (sat_bind _ _).2 ?_
  refine undecided_bind (set _ _) (fun _ => undecided_bind (set _ _) fun _ => undecided_bind (set _ _) fun _ =>
    undecided_bind (set _ _) ?_) s
  intro _
  split
  · exact undecided_bind (set _ _) fun _ => undecided_bind (set _ _) fun _ _ => rfl
  · exact fun _ => rfl

/-- **The message of a failed attempt names the step that failed.** -/
theorem attempt_explained (req : IpcMessage) (s : St) : Explained E (attempt E req) s := by
  have done : ∀ (pam : PamAuth) t, Explained E (pure (none, pam)) t := fun pam t message h => by cases h
  refine explained_step E .start (start_judged _ _) fun pam t hstarted => ?_
  obtain ⟨h, hh⟩ := Option.isSome_iff_exists.1 hstarted
  refine explained_step E .authenticate (authenticate_judged hh _) fun pam t hh => ?_
  refine explained_step E .account (runStep_judged hh (fun _ => rfl) hh) fun pam t hh => ?_
  refine explained_step E .credentials (runStep_judged hh (fun _ => rfl) hh) fun pam t hh => ?_
  refine (sat_bind _ _).2 (Sat.mono (setLoginEnv_undecided E req pam t) (fun l _ t hl => ?_) fun _ _ _ h => h)
  have hlast : Explained E (tryStep E (pam.openSession E.pam) Cause.session.text fun pam => return (none, pam)) t :=
    explained_step E .session (runStep_judged hh (fun _ => rfl) hh) fun pam t _ => done pam t
  refine Sat.mono hlast (fun l' r _ h message hr => ?_) fun _ _ _ h => h
  obtain ⟨cause, ret, hret, hmessage, hblames⟩ := h message hr
  refine ⟨cause, ret, hret, hmessage, ?_⟩
  rw [events_append, pamCalls_append]
  exact hblames.after (by rw [hl]; simp [Unblamed])

end Attempt

end Miqudm
