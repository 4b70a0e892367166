import CodeAtlas.Proofs.Markup
import CodeAtlas.Proofs.Server.JobNames
import Mathlib.Algebra.GroupWithZero.Nat
import Mathlib.Algebra.Order.BigOperators.Group.List

/-!
What a submission puts into the page. The template engine escapes by the endings of the names of
templates, and this template has no name. So the message, the address, the commit and the addresses
of the jobs are written as they are. The main statement: the page is the one with these texts escaped
exactly if none of them has a character with a meaning in markup.
-/

namespace CodeAtlas

open List

variable {char : Char} {address commit : String}

/-! ## Escaped texts -/

namespace Markup

theorem length_escape (text : String) :
    (escape text).toList.length = (text.toList.map fun char => (written char).length).sum := by
  rw [toList_escape, length_flatMap]

theorem length_le_escape (text : String) : text.toList.length ≤ (escape text).toList.length := by
  rw [length_escape]
  simpa using sum_le_sum fun char (_ : char ∈ text.toList) => (length_written char).1

theorem length_lt_escape {text : String} (member : char ∈ text.toList)
    (special : isSpecial char = true) : text.toList.length < (escape text).toList.length := by
  rw [length_escape]
  simpa using sum_lt_sum (fun _ => 1) _ (fun char _ => (length_written char).1)
    ⟨char, member, (length_written char).2 special⟩

theorem escape_of_plain {text : String} (plain : ∀ char ∈ text.toList, isSpecial char = false) :
    escape text = text := by
  have each : ∀ char ∈ text.toList, written char = [char] := fun char member =>
    written_of_plain (plain char member)
  rw [← String.toList_inj, toList_escape, flatMap_congr each, flatMap_singleton']

/-- An engine that changes nothing in templates whose names have none of the endings. -/
def Engine.GoesByEnding (engine : Engine) : Prop :=
  ∀ endings name, (∀ ending ∈ endings, Text.endsWith name ("." ++ ending) = false) →
    engine endings name = id

theorem goesByEnding_byEnding : Engine.GoesByEnding byEnding := by
  intro endings name unlisted
  funext text
  rw [byEnding, if_neg (by simpa using unlisted)]
  rfl

end Markup

namespace Server

namespace Page

/-! ## Characters of a page -/

/-- How many characters of a kind some lines have, with the breaks behind them. -/
def weight (kind : Char → Bool) (lines : List String) : Nat :=
  (lines.map fun line => line.toList.countP kind + "\n".toList.countP kind).sum

variable {kind : Char → Bool}

theorem weight_append (lines others : List String) :
    weight kind (lines ++ others) = weight kind lines + weight kind others := by
  simp [weight]

theorem weight_join {lines : List String} (filled : lines ≠ []) :
    (Text.join "\n" lines).toList.countP kind + "\n".toList.countP kind = weight kind lines := by
  induction lines with
  | nil => exact absurd rfl filled
  | cons first rest induction =>
    cases rest with
    | nil => simp [weight]
    | cons second others =>
      have further := induction (cons_ne_nil second others)
      rw [Text.join_cons_cons, String.toList_append, String.toList_append, countP_append,
        countP_append, Nat.add_assoc, further]
      rfl

/-! Each text that is put into a part of the page adds its characters to those of the part. -/

theorem weight_line (before text after : String) :
    weight kind [before ++ text ++ after] = before.toList.countP kind + text.toList.countP kind +
      after.toList.countP kind + "\n".toList.countP kind := by
  simp only [weight, map_cons, map_nil, sum_cons, sum_nil, String.toList_append,
    countP_append, Nat.add_zero]

theorem countP_empty : "".toList.countP kind = 0 := rfl

theorem weight_message (good : Bool) (text : String) :
    weight kind (Message.lines ⟨good, text⟩) =
      weight kind (Message.lines ⟨good, ""⟩) + text.toList.countP kind := by
  obtain ⟨front, back, parts⟩ : ∃ front back, ∀ text, Message.lines ⟨good, text⟩ =
      front ++ ["                " ++ text ++ ""] ++ back :=
    ⟨(Message.lines ⟨good, ""⟩).take 1, (Message.lines ⟨good, ""⟩).drop 2, fun text => by
      rw [String.append_empty]
      rfl⟩
  rw [parts, parts, weight_append, weight_append, weight_append, weight_append, weight_line,
    weight_line, countP_empty]
  omega

theorem weight_form (address commit : String) :
    weight kind (form address commit) =
      weight kind (form "" "") + address.toList.countP kind + commit.toList.countP kind := by
  obtain ⟨front, middle, back, parts⟩ : ∃ front middle back, ∀ address commit,
      form address commit =
        front ++ ["                        value=\"" ++ address ++ "\""] ++ (middle ++
          ["                        value=\"" ++ commit ++ "\""] ++ back) :=
    ⟨(form "" "").take 9, ((form "" "").drop 10).take 10, (form "" "").drop 21, fun _ _ => rfl⟩
  rw [parts, parts]
  simp only [weight_append, weight_line, countP_empty]
  omega

def written (write : String → String) (job : Job) : Job :=
  { job with address := .text (write job.address.shown) }

theorem weight_jobLines (write : String → String) (job : Job) :
    weight kind (jobLines id (written write job)) =
      weight kind (jobLines id (written (fun _ => "") job)) +
        (write job.address.shown).toList.countP kind := by
  obtain ⟨front, back, parts⟩ : ∃ front back, ∀ write, jobLines id (written write job) =
      front ++ ["                        <div class=\"job-url\">" ++ write job.address.shown ++
        "</div>"] ++ back :=
    ⟨(jobLines id job).take 2, (jobLines id job).drop 3, fun _ => rfl⟩
  rw [parts, parts]
  simp only [weight_append, weight_line, countP_empty]
  omega

theorem weight_jobSection (write : String → String) (jobs : List Job) :
    weight kind (jobSection id (jobs.map (written write))) =
      weight kind (jobSection id (jobs.map (written fun _ => ""))) +
        (jobs.map fun job => (write job.address.shown).toList.countP kind).sum := by
  have items : weight kind ((jobs.map (written write)).flatMap (jobLines id)) =
      weight kind ((jobs.map (written fun _ => "")).flatMap (jobLines id)) +
        (jobs.map fun job => (write job.address.shown).toList.countP kind).sum := by
    induction jobs with
    | nil => rfl
    | cons job rest induction =>
      simp only [map_cons, flatMap_cons, weight_append, weight_jobLines write job,
        induction, sum_cons]
      omega
  cases jobs with
  | nil => rfl
  | cons job rest =>
    simp only [jobSection, map_cons, isEmpty_cons, Bool.false_eq_true, if_false,
      weight_append] at items ⊢
    omega

/-! ## The page with its texts in some written form -/

def values (message : Message) (address commit : String) (jobs : List Job) : List String :=
  message.text :: address :: commit :: jobs.map fun job => job.address.shown

/-- The page with each of these texts in some written form, and all else as it is. -/
def homeWith (write : String → String) (message : Message) (address commit : String)
    (jobs : List Job) : String :=
  Text.join "\n" (homeLines id (some { message with text := write message.text }) (write address)
    (write commit) (jobs.map (written write)))

theorem homeWith_congr {write other : String → String} {message : Message} {jobs : List Job}
    (same : ∀ value ∈ values message address commit jobs, write value = other value) :
    homeWith write message address commit jobs = homeWith other message address commit jobs := by
  simp only [values, forall_mem_cons, forall_mem_map] at same
  rcases same with ⟨text, atAddress, atCommit, each⟩
  have jobsSame : jobs.map (written write) = jobs.map (written other) := by
    refine map_congr_left fun job member => ?_
    rw [written, written, each job member]
  rw [homeWith, homeWith, text, atAddress, atCommit, jobsSame]

theorem home_eq_homeWith {engine : Markup.Engine} (byEnding : engine.GoesByEnding)
    (message : Message) (address commit : String) (jobs : List Job) :
    home engine (some message) address commit jobs = homeWith id message address commit jobs := by
  have unchanged : engine escapedEndings templateName = id :=
    byEnding _ _ (by decide +kernel)
  have jobsSame : jobSection id (jobs.map (written id)) = jobSection id jobs := by
    rw [jobSection, jobSection, isEmpty_map, flatMap_map]
    rfl
  rw [homeWith, home, unchanged, homeLines, homeLines, jobsSame]
  rfl

theorem countP_homeWith (write : String → String) (message : Message) (address commit : String)
    (jobs : List Job) :
    (homeWith write message address commit jobs).toList.countP kind =
      (homeWith (fun _ => "") message address commit jobs).toList.countP kind +
        ((values message address commit jobs).map fun value =>
          (write value).toList.countP kind).sum := by
  have whole (write : String → String) :
      (homeWith write message address commit jobs).toList.countP kind + "\n".toList.countP kind =
        weight kind (homeLines id (some { message with text := write message.text }) (write address)
          (write commit) (jobs.map (written write))) :=
    weight_join (cons_ne_nil _ _)
  have first := whole write
  have second := whole fun _ => ""
  simp only [homeLines, Option.map_some, Option.getD_some, weight_append, id] at first second
  rw [weight_message _ (write message.text), weight_form (write address) (write commit),
    weight_jobSection write jobs] at first
  simp only [values, map_cons, map_map, Function.comp_def, sum_cons]
  omega

/-- Escaping makes every text longer that it changes, and with it the page. -/
theorem homeWith_escape_eq_iff {message : Message} {jobs : List Job} :
    homeWith Markup.escape message address commit jobs =
        homeWith id message address commit jobs ↔
      ∀ value ∈ values message address commit jobs, ∀ char ∈ value.toList,
        Markup.isSpecial char = false := by
  constructor
  · intro same value member char inside
    rw [← Bool.not_eq_true]
    intro special
    have longer := sum_lt_sum (fun value => value.toList.length)
      (fun value => (Markup.escape value).toList.length)
      (fun value (_ : value ∈ values message address commit jobs) => Markup.length_le_escape value)
      ⟨value, member, Markup.length_lt_escape inside special⟩
    have lengths := congrArg (fun page => page.toList.countP fun _ => true) same
    simp only [countP_homeWith Markup.escape, countP_homeWith id, countP_true, id] at lengths
    omega
  · intro plain
    exact homeWith_congr fun value member => Markup.escape_of_plain (plain value member)

end Page

/-! ## Submissions -/

namespace Service

variable {service after : Service} {now : Time.Moment} {isThere : String → Bool}

theorem submit_eq_page {written page : String}
    (answered : service.submit now isThere (some written) commit = (after, .ok (.page page))) :
    ∃ remembered message shown jobs, service.forgetOld now = .ok remembered ∧
      remembered.submitAddress now isThere (Text.strip written) (Text.strip commit) =
        (after, .ok (message, shown)) ∧
      after.jobs.newestFirst = .ok jobs ∧
      page = Page.home service.engine (some message) shown (Text.strip commit) jobs := by
  rw [submit] at answered
  split at answered
  · cases answered
  · rename_i remembered forgotten
    simp only at answered
    rcases called : remembered.submitAddress now isThere (Text.strip written) (Text.strip commit)
      with ⟨changed, answer⟩
    rw [called] at answered
    simp only [Prod.mk.injEq] at answered
    rcases answered with ⟨rfl, replied⟩
    rcases bind_eq_ok_iff.mp replied with ⟨⟨message, shown⟩, given, rest⟩
    rcases bind_eq_ok_iff.mp rest with ⟨jobs, sorted, same⟩
    simp only [pure, Except.pure, Except.ok.injEq, Reply.page.injEq] at same
    exact ⟨remembered, message, shown, jobs, forgotten, by rw [called, given], sorted, same.symm⟩

theorem shown_of_takeIn {id shown emptied : String} {commit : Option String}
    {message : Page.Message} (answered : service.takeIn now isThere id address shown commit =
      (after, .ok (message, emptied))) : emptied = shown ∨ emptied = "" := by
  rw [takeIn] at answered
  split at answered
  · cases answered
  · simp only at answered
    split at answered
    · cases answered
    · cases answered
      exact .inl rfl
    · cases answered
      exact .inr rfl

theorem shown_of_submitAddress {shown : String} {message : Page.Message}
    (answered : service.submitAddress now isThere address commit = (after, .ok (message, shown))) :
    shown = address ∨ shown = "" := by
  rw [submitAddress] at answered
  split at answered
  · cases answered
    exact .inl rfl
  · split at answered
    · cases answered
      exact .inl rfl
    · simp only at answered
      split at answered
      · cases answered
      · split at answered
        · cases answered
        · cases answered
          exact .inl rfl
        · exact shown_of_takeIn answered

end Service

theorem perm_of_newestFirst {jobs : Jobs} {listed : List Job}
    (sorted : jobs.newestFirst = .ok listed) : listed.Perm jobs.values := by
  simp only [Jobs.newestFirst] at sorted
  split at sorted
  · cases sorted
  · cases sorted
    exact mergeSort_perm _ _

/-- What is in the page that answers a submission, and when its texts are escaped. -/
theorem submission_page_escaped_iff {service after : Service} {now : Time.Moment}
    {isThere : String → Bool} {written commit page : String}
    (byEnding : service.engine.GoesByEnding)
    (answered : service.submit now isThere (some written) commit = (after, .ok (.page page))) :
    ∃ remembered message shown jobs, service.forgetOld now = .ok remembered ∧
      remembered.submitAddress now isThere (Text.strip written) (Text.strip commit) =
        (after, .ok (message, shown)) ∧
      (shown = Text.strip written ∨ shown = "") ∧ jobs.Perm after.jobs.values ∧
      page = Page.home service.engine (some message) shown (Text.strip commit) jobs ∧
      (∀ char, page.toList.count char =
        (Page.homeWith (fun _ => "") message shown (Text.strip commit) jobs).toList.count char +
          ((Page.values message shown (Text.strip commit) jobs).map fun value =>
            value.toList.count char).sum) ∧
      (page = Page.homeWith Markup.escape message shown (Text.strip commit) jobs ↔
        ∀ value ∈ Page.values message shown (Text.strip commit) jobs, ∀ char ∈ value.toList,
          Markup.isSpecial char = false) := by
  rcases Service.submit_eq_page answered with
    ⟨remembered, message, shown, jobs, forgotten, called, sorted, rfl⟩
  refine ⟨remembered, message, shown, jobs, forgotten, called,
    Service.shown_of_submitAddress called, perm_of_newestFirst sorted, rfl, ?_, ?_⟩
  · intro char
    rw [Page.home_eq_homeWith byEnding]
    exact Page.countP_homeWith id message shown (Text.strip commit) jobs
  · rw [Page.home_eq_homeWith byEnding, eq_comm]
    exact Page.homeWith_escape_eq_iff

/-- What a fresh service answers to something that is no address of a repository. -/
def refusal (address commit : String) : String :=
  Page.home Markup.byEnding (some ⟨false, "Please enter a valid GitHub repository URL"⟩) address
    commit []

theorem Service.submitAddress_of_refused (service : Service) (filled : address.isEmpty = false)
    (refused : Hosting.isRepository address = false) (now : Time.Moment) (isThere : String → Bool)
    (commit : String) :
    service.submitAddress now isThere address commit =
      (service, .ok (⟨false, "Please enter a valid GitHub repository URL"⟩, address)) := by
  rw [submitAddress, filled, refused]
  rfl

theorem Service.submit_fresh_of_refused {written : String}
    (filled : (Text.strip written).isEmpty = false)
    (refused : Hosting.isRepository (Text.strip written) = false) (commit : String) :
    fresh.submit someday bare.disk.exists? (some written) commit =
      (fresh, .ok (.page (refusal (Text.strip written) (Text.strip commit)))) := by
  have remembered : fresh.forgetOld someday = .ok fresh := rfl
  have sorted : fresh.jobs.newestFirst = .ok [] := by
    simp [Jobs.newestFirst, fresh, OrderedMap.values, OrderedMap.empty]
  simp only [submit, remembered, submitAddress_of_refused fresh filled refused, sorted]
  rfl

theorem plain_refusal_escaped :
    Service.fresh.engine.GoesByEnding ∧
    Service.fresh.submit Service.someday Service.bare.disk.exists? (some "no address") "abc1234" =
      (Service.fresh, .ok (.page (refusal "no address" "abc1234"))) ∧
    refusal "no address" "abc1234" =
      Page.homeWith Markup.escape ⟨false, "Please enter a valid GitHub repository URL"⟩ "no address"
        "abc1234" [] := by
  have filled : ("no address" : String).isEmpty = false := by decide
  have refused : Hosting.isRepository "no address" = false := by decide +kernel
  have stripped : Text.strip "no address" = "no address" := by decide +kernel
  have strippedCommit : Text.strip "abc1234" = "abc1234" := by decide +kernel
  have answered := @Service.submit_fresh_of_refused "no address" (stripped ▸ filled)
    (stripped ▸ refused) "abc1234"
  rcases submission_page_escaped_iff Markup.goesByEnding_byEnding answered with
    ⟨remembered, message, shown, jobs, forgotten, called, _, listed, _, _, escaped⟩
  rw [stripped, strippedCommit] at answered called escaped
  cases forgotten
  rw [Service.submitAddress_of_refused _ filled refused, Prod.mk.injEq, Except.ok.injEq,
    Prod.mk.injEq] at called
  rcases called with ⟨_, rfl, rfl⟩
  cases listed.eq_nil
  have plain : (Page.values ⟨false, "Please enter a valid GitHub repository URL"⟩ "no address"
      "abc1234" []).all (fun value => value.toList.all fun char => !Markup.isSpecial char) = true := by
    decide +kernel
  exact ⟨Markup.goesByEnding_byEnding, answered,
    escaped.mpr (by simpa only [List.all_eq_true, Bool.not_eq_true'] using plain)⟩

/-- A tag that is submitted stands in the page as it is. -/
theorem tag_not_escaped :
    Service.fresh.submit Service.someday Service.bare.disk.exists? (some "\"><b>") "" =
      (Service.fresh, .ok (.page (refusal "\"><b>" ""))) ∧
    refusal "\"><b>" "" ≠
      Page.homeWith Markup.escape ⟨false, "Please enter a valid GitHub repository URL"⟩ "\"><b>" ""
        [] := by
  have stripped : Text.strip "\"><b>" = "\"><b>" := by decide +kernel
  have strippedCommit : Text.strip "" = "" := by decide +kernel
  have answered :=
    @Service.submit_fresh_of_refused "\"><b>" (by decide +kernel) (by decide +kernel) ""
  rw [stripped, strippedCommit] at answered
  refine ⟨answered, fun same => ?_⟩
  rw [refusal, Page.home_eq_homeWith Markup.goesByEnding_byEnding] at same
  have plain := Page.homeWith_escape_eq_iff.mp same.symm "\"><b>"
    (List.mem_cons_of_mem _ List.mem_cons_self) '<' (by decide)
  cases plain

end Server

end CodeAtlas
