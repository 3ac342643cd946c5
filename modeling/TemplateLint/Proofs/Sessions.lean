import TemplateLint.Proofs.Buckets
import TemplateLint.Proofs.RuleOrder

/-!
# A session runs once

The holder of a session can ask it to run, to show its findings and to show its rules, in any order
and as often as wanted. `Session.replies` is what comes back, and `Session.runs_once` says what
every reply may be, given the replies before it: a session is run by the first request to do so and
refuses all others, also if its run failed; the findings that it shows are none until it has
returned a report, and from then on those of this report; and its rules never change.

Nothing half done is ever seen. A run fails if one rule fails or one finding has no known severity,
however late (`exists_runRules_iff`), and then the session has nothing to show.

The invariant is `Session.Reflects`: how far a session has come can be read off the replies that it
has given. One request keeps it (`respond_lawful`), hence any number of them (`replies_lawful`).

A `Scanner`, which keeps a flag and three lists instead, gives the same replies
(`Scanner.exists_session_of_create`): its lists are empty until the one run that can add to them.
-/

namespace TemplateLint

/-! ### When a run gives a report -/

/-- Related partners with a property can be found for a list if they can be found for each
member. -/
private theorem exists_forall₂_iff {α β : Type} {R : α → β → Prop} {P : β → Prop} {l : List α} :
    (∃ partners, List.Forall₂ R l partners ∧ ∀ b ∈ partners, P b) ↔
      ∀ a ∈ l, ∃ b, R a b ∧ P b := by
  induction l with
  | nil => simp
  | cons a l ih =>
    rw [List.forall_mem_cons, ← ih]
    constructor
    · rintro ⟨partners, hpartners, hall⟩
      obtain ⟨b, bs, hb, hbs, rfl⟩ := List.forall₂_cons_left_iff.mp hpartners
      obtain ⟨hfirst, hrest⟩ := List.forall_mem_cons.mp hall
      exact ⟨⟨b, hb, hfirst⟩, bs, hbs, hrest⟩
    · rintro ⟨⟨b, hb, hfirst⟩, bs, hbs, hrest⟩
      exact ⟨b :: bs, .cons hb hbs, List.forall_mem_cons.mpr ⟨hfirst, hrest⟩⟩

section Runs

variable {options : Options} {source : List Char}

theorem Rule.exists_run_iff {rule : Rule} {P : Diagnostic → Prop} :
    (∃ entry, rule.run options source = .ok entry ∧ ∀ d ∈ entry.found, P d) ↔
      (options.isEnabled rule.code →
        ∃ found, rule.check options source = .ok found ∧ ∀ d ∈ found, P d) := by
  rw [Rule.run]
  split
  · next henabled =>
    simp only [map_eq_ok_iff, henabled, forall_const]
    constructor
    · rintro ⟨_, ⟨found, hfound, rfl⟩, hall⟩
      exact ⟨found, hfound, hall⟩
    · rintro ⟨found, hfound, hall⟩
      exact ⟨_, ⟨found, hfound, rfl⟩, hall⟩
  · next hdisabled =>
    refine ⟨fun _ henabled => absurd henabled hdisabled, fun _ => ⟨_, rfl, ?_⟩⟩
    simp [RuleRun.found]

/-- **A run gives a report exactly if every rule that is switched on returns**, and finds nothing
but what has a known severity. -/
theorem exists_runRules_iff {rules : List Rule} :
    (∃ run, runRules options source rules = .ok run) ↔
      ∀ rule ∈ rules, options.isEnabled rule.code →
        ∃ found, rule.check options source = .ok found ∧
          ∀ d ∈ found, (Severity.ofLabel? d.severity).isSome := by
  simp only [← Rule.exists_run_iff, ← exists_forall₂_iff]
  constructor
  · rintro ⟨run, hrun⟩
    obtain ⟨hentries, hreport, -⟩ := runRules_eq_ok_iff.mp hrun
    have hknown := Report.exists_ofDiagnostics_iff.mp ⟨_, hreport⟩
    exact ⟨run.runs, hentries, fun entry hentry d hd =>
      hknown d (List.mem_flatMap.mpr ⟨entry, hentry, hd⟩)⟩
  · rintro ⟨entries, hentries, hknown⟩
    have hfindings : ∀ d ∈ entries.flatMap RuleRun.found,
        (Severity.ofLabel? d.severity).isSome := by
      intro d hd
      obtain ⟨entry, hentry, hd⟩ := List.mem_flatMap.mp hd
      exact hknown entry hentry d hd
    obtain ⟨report, hreport⟩ := Report.exists_ofDiagnostics_iff.mpr hfindings
    exact ⟨⟨source, entries, report⟩, runRules_eq_ok_iff.mpr ⟨hentries, hreport, rfl⟩⟩

end Runs

/-! ### Requests and replies -/

namespace Session

/-- What can be asked of a session. -/
inductive Request where
  | scan
  | buckets
  | rules

/-- What a session answers. -/
inductive Reply where
  /-- The report of a run, or why there is none. -/
  | scanned (outcome : Except LintError Report)
  | buckets (shown : Report)
  | rules (shown : List Rule)

/-- The reply to a request, and the session after it. -/
def respond (session : Session) : Request → Reply × Session
  | .scan => (.scanned (session.scan.1.map LintRun.report), session.scan.2)
  | .buckets => (.buckets session.buckets, session)
  | .rules => (.rules session.rules, session)

/-- The replies to requests that are made one after the other. -/
def replies : Session → List Request → List Reply
  | _, [] => []
  | session, request :: requests =>
    (session.respond request).1 :: (session.respond request).2.replies requests

/-- How far a session has come, as the replies that it has given tell it. -/
def Reflects (past : List Reply) : Progress → Prop
  | .fresh => ∀ outcome, .scanned outcome ∉ past
  | .failed => (∃ outcome, .scanned outcome ∈ past) ∧ ∀ report, .scanned (.ok report) ∉ past
  | .finished run => .scanned (.ok run.report) ∈ past

/-- What a reply may be after the replies of the past, if the first run has the outcome `first`. -/
def Reply.Lawful (first : Except LintError Report) (rules : List Rule) (past : List Reply) :
    Reply → Prop
  | .scanned outcome =>
    ((∃ earlier, .scanned earlier ∈ past) → outcome = .error .spent) ∧
      ((∀ earlier, .scanned earlier ∉ past) → outcome = first)
  | .buckets shown =>
    .scanned (.ok shown) ∈ past ∨ shown = {} ∧ ∀ report, .scanned (.ok report) ∉ past
  | .rules shown => shown = rules

/-- The outcome of the run that a session is for. -/
def outcome (session : Session) : Except LintError Report :=
  (runRules session.options session.source session.rules).map LintRun.report

variable {session : Session} {past : List Reply}

/-- What a scan can do: run a fresh session, with or without success, or refuse. -/
theorem scan_cases (session : Session) :
    (session.progress = .fresh ∧
      ((∃ run, session.outcome = .ok run.report ∧
        session.scan = (.ok run, { session with progress := .finished run })) ∨
      ∃ error, session.outcome = .error error ∧
        session.scan = (.error error, { session with progress := .failed }))) ∨
    (session.progress ≠ .fresh ∧ session.scan = (.error .spent, session)) := by
  cases hprogress : session.progress with
  | fresh =>
    refine .inl ⟨rfl, ?_⟩
    rw [outcome]
    cases hrun : runRules session.options session.source session.rules with
    | ok run => exact .inl ⟨run, rfl, by simp only [scan, hprogress, hrun]⟩
    | error error => exact .inr ⟨error, rfl, by simp only [scan, hprogress, hrun]⟩
  | failed => exact .inr ⟨Progress.noConfusion, by simp only [scan, hprogress]⟩
  | finished run => exact .inr ⟨Progress.noConfusion, by simp only [scan, hprogress]⟩

/-- A request changes nothing of a session but how far it has come. -/
private theorem respond_snd (session : Session) (request : Request) :
    ∃ progress, (session.respond request).2 = { session with progress } := by
  cases request with
  | scan =>
    rcases session.scan_cases with ⟨-, ⟨run, -, hscan⟩ | ⟨error, -, hscan⟩⟩ | ⟨-, hscan⟩
    · exact ⟨.finished run, by rw [respond, hscan]⟩
    · exact ⟨.failed, by rw [respond, hscan]⟩
    · exact ⟨session.progress, by rw [respond, hscan]⟩
  | buckets => exact ⟨session.progress, rfl⟩
  | rules => exact ⟨session.progress, rfl⟩

/-- A session that is no longer fresh has been scanned. -/
private theorem Reflects.exists_scanned {progress : Progress} (h : Reflects past progress)
    (hprogress : progress ≠ .fresh) : ∃ outcome, .scanned outcome ∈ past := by
  cases progress with
  | fresh => exact absurd rfl hprogress
  | failed => exact h.1
  | finished run => exact ⟨_, h⟩

/-- A reply without a report tells nothing new, unless it is the first scan. -/
theorem Reflects.append {progress : Progress} (h : Reflects past progress) {reply : Reply}
    (hreply : ∀ report, reply ≠ .scanned (.ok report))
    (hfresh : progress = .fresh → ∀ outcome, reply ≠ .scanned outcome) :
    Reflects (past ++ [reply]) progress := by
  cases progress with
  | fresh =>
    intro outcome hmem
    rcases List.mem_append.mp hmem with hmem | hmem
    · exact h outcome hmem
    · exact hfresh rfl outcome (List.mem_singleton.mp hmem).symm
  | failed =>
    refine ⟨h.1.imp fun _ => List.mem_append_left _, fun report hmem => ?_⟩
    rcases List.mem_append.mp hmem with hmem | hmem
    · exact h.2 report hmem
    · exact hreply report (List.mem_singleton.mp hmem).symm
  | finished run => exact List.mem_append_left _ h

private theorem scan_lawful (h : Reflects past session.progress) :
    (Reply.scanned (session.scan.1.map LintRun.report)).Lawful session.outcome session.rules past ∧
      Reflects (past ++ [.scanned (session.scan.1.map LintRun.report)])
        session.scan.2.progress := by
  rcases session.scan_cases with ⟨hfresh, hscan⟩ | ⟨hspent, hscan⟩
  · rw [hfresh] at h
    have hfirst : ¬ ∃ earlier, .scanned earlier ∈ past := fun ⟨earlier, hmem⟩ => h earlier hmem
    rcases hscan with ⟨run, houtcome, hscan⟩ | ⟨error, houtcome, hscan⟩
    · rw [hscan, houtcome]
      exact ⟨⟨fun hpast => absurd hpast hfirst, fun _ => rfl⟩,
        List.mem_append_right _ (List.mem_singleton_self _)⟩
    · rw [hscan, houtcome]
      refine ⟨⟨fun hpast => absurd hpast hfirst, fun _ => rfl⟩,
        ⟨_, List.mem_append_right _ (List.mem_singleton_self _)⟩, fun report hmem => ?_⟩
      rcases List.mem_append.mp hmem with hmem | hmem
      · exact h _ hmem
      · simp [Except.map] at hmem
  · have hearlier := h.exists_scanned hspent
    rw [hscan]
    refine ⟨⟨fun _ => rfl, fun hnone => ?_⟩, h.append ?_ fun hfresh => absurd hfresh hspent⟩
    · obtain ⟨earlier, hmem⟩ := hearlier
      exact absurd hmem (hnone earlier)
    · intro report hreply
      simp [Except.map] at hreply

private theorem buckets_lawful (h : Reflects past session.progress) :
    (Reply.buckets session.buckets).Lawful session.outcome session.rules past := by
  rw [buckets]
  cases hprogress : session.progress with
  | fresh =>
    rw [hprogress] at h
    exact .inr ⟨rfl, fun report => h _⟩
  | failed =>
    rw [hprogress] at h
    exact .inr ⟨rfl, h.2⟩
  | finished run =>
    rw [hprogress] at h
    exact .inl h

/-- **One request**: the reply is lawful, and with it the replies still tell how far the session has
come. -/
theorem respond_lawful (h : Reflects past session.progress) (request : Request) :
    (session.respond request).1.Lawful session.outcome session.rules past ∧
      Reflects (past ++ [(session.respond request).1]) (session.respond request).2.progress := by
  cases request with
  | scan => exact scan_lawful h
  | buckets => exact ⟨buckets_lawful h, h.append (by simp [respond]) (by simp [respond])⟩
  | rules => exact ⟨rfl, h.append (by simp [respond]) (by simp [respond])⟩

/-- **Any number of requests**: every reply is lawful after those before it. -/
theorem replies_lawful (h : Reflects past session.progress) {requests : List Request}
    {before later : List Reply} {reply : Reply}
    (hreplies : session.replies requests = before ++ reply :: later) :
    reply.Lawful session.outcome session.rules (past ++ before) := by
  induction requests generalizing session past before with
  | nil => simp [replies] at hreplies
  | cons request requests ih =>
    obtain ⟨hlawful, hreflects⟩ := respond_lawful h request
    rw [replies] at hreplies
    cases before with
    | nil =>
      obtain ⟨rfl, -⟩ := List.cons.inj hreplies
      rwa [List.append_nil]
    | cons first before =>
      obtain ⟨rfl, hrest⟩ := List.cons.inj hreplies
      have hlater := ih hreflects hrest
      -- the session after the request is for the same run
      obtain ⟨progress, hsame⟩ := session.respond_snd request
      rw [hsame, List.append_assoc] at hlater
      exact hlater

/-! ### Scanners -/

/-- The scanner that stands for a session. -/
def scanner (session : Session) : Scanner where
  source := session.source
  options := session.options
  rules := session.rules
  errors := session.buckets.errors
  warnings := session.buckets.warnings
  suggestions := session.buckets.suggestions
  scanned :=
    match session.progress with
    | .fresh => false
    | .failed | .finished _ => true

end Session

namespace Scanner

theorem create_eq (source : List Char) (options : Options) (rules : List Rule) :
    Scanner.create source options rules =
      (Session.create source options rules).map Session.scanner := by
  rw [Scanner.create, Session.create]
  cases checkRules rules <;> rfl

theorem scan_scanner (session : Session) :
    session.scanner.scan = (session.scan.1, session.scan.2.scanner) := by
  rw [scan, Session.scan]
  cases hprogress : session.progress with
  | fresh =>
    -- the lists are empty, so what the run adds to them is all that they hold
    cases hrun : runRules session.options session.source session.rules <;>
      simp [Session.scanner, Session.buckets, hprogress, hrun]
  | failed => simp [Session.scanner, hprogress]
  | finished run => simp [Session.scanner, hprogress]

/-- The reply to a request, and the scanner after it. -/
def respond (scanner : Scanner) : Session.Request → Session.Reply × Scanner
  | .scan => (.scanned (scanner.scan.1.map LintRun.report), scanner.scan.2)
  | .buckets => (.buckets scanner.buckets, scanner)
  | .rules => (.rules scanner.rules, scanner)

/-- The replies to requests that are made one after the other. -/
def replies : Scanner → List Session.Request → List Session.Reply
  | _, [] => []
  | scanner, request :: requests =>
    (scanner.respond request).1 :: (scanner.respond request).2.replies requests

/-- **One request**: a scanner replies as the session that it stands for, and goes on to stand
for it. -/
theorem respond_scanner (session : Session) (request : Session.Request) :
    session.scanner.respond request =
      ((session.respond request).1, (session.respond request).2.scanner) := by
  cases request with
  | scan => rw [respond, Session.respond, scan_scanner]
  | buckets => rfl
  | rules => rfl

/-- **Any number of requests**: a flag and three lists cannot be told from a session. -/
theorem replies_scanner (session : Session) (requests : List Session.Request) :
    session.scanner.replies requests = session.replies requests := by
  induction requests generalizing session with
  | nil => rfl
  | cons request requests ih =>
    rw [replies, Session.replies, respond_scanner, ih]

/-- A new scanner replies as a new session with the same rules does, whatever it is asked. -/
theorem exists_session_of_create {source : List Char} {options : Options} {rules : List Rule}
    {scanner : Scanner} (h : Scanner.create source options rules = .ok scanner) :
    ∃ session, Session.create source options rules = .ok session ∧
      ∀ requests, scanner.replies requests = session.replies requests := by
  rw [create_eq, map_eq_ok_iff] at h
  obtain ⟨session, hsession, rfl⟩ := h
  exact ⟨session, hsession, replies_scanner session⟩

end Scanner

/-- **A session runs once.** For any template and options, and rules that a run accepts, there is a
session, and whatever is asked of it in whatever order:

1. a scan after another scan is refused, whatever came of the earlier one, and the first scan has
   the outcome of the rules, which is a report exactly if every rule that is switched on returns and
   finds nothing but what has a known severity;
2. the findings shown are those of the report that was returned before, and none if no report was;
3. the rules shown are always those that were given, pass by pass. -/
theorem Session.runs_once (source : List Char) (options : Options) {rules : List Rule}
    (hrules : checkRules rules = .ok ()) :
    ∃ session, Session.create source options rules = .ok session ∧
      ((∃ run, runRules options source (passByPass rules) = .ok run) ↔
        ∀ rule ∈ rules, options.isEnabled rule.code →
          ∃ found, rule.check options source = .ok found ∧
            ∀ d ∈ found, (Severity.ofLabel? d.severity).isSome) ∧
      ∀ requests past later,
        (∀ outcome, session.replies requests = past ++ .scanned outcome :: later →
          ((∃ earlier, .scanned earlier ∈ past) → outcome = .error .spent) ∧
          ((∀ earlier, .scanned earlier ∉ past) →
            outcome = (runRules options source (passByPass rules)).map LintRun.report)) ∧
        (∀ shown : Report, session.replies requests = past ++ .buckets shown :: later →
          .scanned (.ok shown) ∈ past ∨ shown = {} ∧ ∀ report, .scanned (.ok report) ∉ past) ∧
        (∀ shown, session.replies requests = past ++ .rules shown :: later →
          shown = passByPass rules) := by
  let session : Session := { source, options, rules := passByPass rules, progress := .fresh }
  have hfresh : Session.Reflects [] session.progress := fun outcome => List.not_mem_nil
  have hmem : ∀ rule, rule ∈ passByPass rules ↔ rule ∈ rules := fun rule => by
    rw [← orderByPass_eq hrules]
    exact List.mem_mergeSort
  refine ⟨session, Session.create_eq_ok hrules, ?_, fun requests past later =>
    ⟨fun outcome h => Session.replies_lawful hfresh h,
      fun shown h => Session.replies_lawful hfresh h,
      fun shown h => Session.replies_lawful hfresh h⟩⟩
  simp only [exists_runRules_iff, hmem]

/-- A rule whose last finding has no known severity, before a built-in one: the session has nothing
to show and refuses to run again. -/
theorem Session.runs_once_unknownSeverity :
    ∃ rules : List Rule, rules.map Rule.name = ["own", "unmatchedTag"] ∧
      checkRules rules = .ok () ∧
      ∃ session, Session.create "\x7b\x7b#if p".toList {} rules = .ok session ∧
        ¬ (∃ run, runRules {} "\x7b\x7b#if p".toList (passByPass rules) = .ok run) ∧
        ∀ past later,
          (∀ outcome, session.replies [.scan, .buckets, .scan] = past ++ .scanned outcome :: later →
            (∃ earlier, .scanned earlier ∈ past) → outcome = .error .spent) ∧
          (∀ shown : Report,
            session.replies [.scan, .buckets, .scan] = past ++ .buckets shown :: later →
            .scanned (.ok shown) ∈ past ∨ shown = {} ∧ ∀ report, .scanned (.ok report) ∉ past) := by
  let own := Rule.constant "own" "no_forms" "convention"
    [⟨"no_forms", "first", none, "warning", none, none⟩,
      ⟨"no_forms", "last", some (0, 1), "fatal", none, none⟩]
  have hrules : checkRules [own, .unmatchedTag] = .ok () := by rfl
  obtain ⟨session, hsession, hreport, hreplies⟩ :=
    Session.runs_once "\x7b\x7b#if p".toList {} hrules
  refine ⟨[own, .unmatchedTag], rfl, hrules, session, hsession, fun hrun => ?_, fun past later =>
    ⟨fun outcome h => ((hreplies _ past later).1 outcome h).1, (hreplies _ past later).2.1⟩⟩
  obtain ⟨found, hfound, hknown⟩ := hreport.mp hrun own (by simp) (by decide)
  cases hfound
  exact absurd (hknown ⟨"no_forms", "last", some ⟨0, 1, by decide⟩, "fatal", none, none⟩ (by simp))
    (by decide)

end TemplateLint
