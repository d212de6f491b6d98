/-
Module: NookOs.Forge.Verdict
Purpose: The delivery of verdicts to a pull request, one request after another,
  beside other deliveries and the people who work there.
Trusted boundary: none
Main exports: Conclusion, alreadyDelivered, Phase, Deliveries.Sound, verdict_delivered_once
-/
import NookOs.Forge.Reads
import NookOs.Jobs.Hygiene
import NookOs.Lib.InFlight
import NookOs.Lib.Run

namespace NookOs.Forge.Verdict

open Lib
open Jobs (verdictLabels)

/-! ### What is delivered -/

/-- What a review concluded: at which head, the label of its verdict, and what
it has to say. -/
structure Conclusion where
  head : String
  label : String
  body : String
deriving DecidableEq

/-- The first line of a review's comment. -/
def marker (head : String) : String := "Loop review of " ++ head

def Conclusion.comment (conclusion : Conclusion) : String :=
  marker conclusion.head ++ ("\n\n" ++ conclusion.body)

/-- The comment begins with the marker of the head. -/
def startsWith (head : String) (comment : String) : Bool :=
  (marker head).toList.isPrefixOf comment.toList

/-- Another verdict's label is on. -/
def another (labels : List String) (label : String) : Bool :=
  labels.any fun other => verdictLabels.contains other && other != label

/-- The conclusion was delivered already, as far as the comments and the labels
of the pull request tell. -/
def alreadyDelivered (comments labels : List String) (head label : String)
    (forced : Bool) : Bool :=
  if forced then false
  else if !comments.any (startsWith head) then false
  else labels.contains label || !another labels label

/-- The labels a verdict replaces. -/
def replaced (label : String) : List String := verdictLabels.filter (· ≠ label)

/-! ### Deliveries, one request at a time -/

/-- A pull request, as deliveries and people see it. -/
structure Issue where
  head : String
  comments : List String
  labels : List String
deriving DecidableEq

/-- What is called for: `post_verdict` or `set_verdict_label`. -/
inductive Task where
  | verdict (conclusion : Conclusion) (forced : Bool)
  | setLabel (label : String)
deriving DecidableEq

def Task.label : Task → String
  | .verdict conclusion _ => conclusion.label
  | .setLabel label => label

/-- The request a call makes next: a page of the comments, with what the pages
before held; the labels; its comment, after reads that succeeded or not; the
removal of the first label left to remove, and with none left, its own label. -/
inductive Phase where
  | comments (read : Nat) (gathered : List String)
  | labels (gathered : List String)
  | comment (wasRead : Bool)
  | labelling (left : List String)
deriving DecidableEq

/-- A call in flight.  `repeats` is set where it was made for the conclusion of
the latest verdict, whose comment was there. -/
structure Call where
  task : Task
  phase : Phase
  repeats : Bool
deriving DecidableEq

/-- How a request ends: answered, failed before it took effect, or after. -/
inductive Fate where
  | answered
  | refused
  | unheard
deriving DecidableEq

/-- A pull request and the calls about it; `delivered` has the conclusions whose
`post_verdict` succeeded. -/
structure Deliveries where
  issue : Issue
  calls : List Call
  latest : Option Conclusion
  delivered : List Conclusion
deriving DecidableEq

inductive Event where
  | call (task : Task)
  | request (index : Nat) (fate : Fate)
  | removeLabel (label : String)
  | comment (comment : String)
  | push (head : String)
deriving DecidableEq

namespace Issue

variable (issue : Issue)

def say (comment : String) : Issue :=
  { issue with comments := issue.comments ++ [comment] }

def unlabel (label : String) : Issue :=
  { issue with labels := issue.labels.filter (· ≠ label) }

def putLabel (label : String) : Issue :=
  { issue with labels := if label ∈ issue.labels then issue.labels else issue.labels ++ [label] }

end Issue

namespace Call

variable (call : Call)

def move (phase : Phase) : Call := { call with phase := phase }

/-- The labels are replaced next. -/
def relabel : Call := call.move (.labelling (replaced call.task.label))

/-- The reads failed: the comment is posted all the same. -/
def unread : Call := call.move (.comment false)

/-- What a page of comments leads to. -/
def page (issue : Issue) (read : Nat) (gathered : List String) : Call :=
  let given := Paging.page pageSize issue.comments (read + 1)
  if given.length < pageSize then call.move (.labels (gathered ++ given))
  else if read + 1 = maxCommentPages then call.unread
  else call.move (.comments (read + 1) (gathered ++ given))

/-- What the labels, with the comments read before, lead to. -/
def weigh (issue : Issue) (gathered : List String) : Call :=
  match call.task with
  | .verdict conclusion forced =>
      if alreadyDelivered gathered issue.labels conclusion.head conclusion.label forced then
        call.relabel
      else call.move (.comment true)
  | .setLabel _ => call.relabel

end Call

namespace Deliveries

/-- A pull request that was just opened. -/
def opened (head : String) : Deliveries :=
  { issue := { head := head, comments := [], labels := [] }
    calls := []
    latest := none
    delivered := [] }

variable (deliveries : Deliveries)

/-- A call that was made.  A label is replaced at once, a verdict begins with
its reads. -/
def start (task : Task) : Deliveries :=
  match task with
  | .verdict conclusion _ =>
      { deliveries with
        calls := deliveries.calls ++ [{
          task := task
          phase := .comments 0 []
          repeats := deliveries.latest = some conclusion &&
            deliveries.issue.comments.contains conclusion.comment }]
        latest := some conclusion }
  | .setLabel label =>
      { deliveries with
        calls := deliveries.calls ++ [{
          task := task, phase := .labelling (replaced label), repeats := false }] }

/-- The call at the index goes on. -/
def onward (index : Nat) (issue : Issue) (call : Call) : Deliveries :=
  { deliveries with issue := issue, calls := deliveries.calls.set index call }

/-- The call at the index is over, with an error. -/
def failed (index : Nat) (issue : Issue) : Deliveries :=
  { deliveries with issue := issue, calls := deliveries.calls.eraseIdx index }

/-- The call at the index has succeeded. -/
def succeeded (index : Nat) (issue : Issue) (task : Task) : Deliveries :=
  { deliveries.failed index issue with
    delivered := match task with
      | .verdict conclusion _ => conclusion :: deliveries.delivered
      | .setLabel _ => deliveries.delivered }

/-- What a write leaves: its effect, unless it was refused. -/
def written (fate : Fate) (effect : Issue → Issue) (issue : Issue) : Issue :=
  if fate = .refused then issue else effect issue

/-- The comment a call posts. -/
def posting (task : Task) (issue : Issue) : Issue :=
  match task with
  | .verdict conclusion _ => issue.say conclusion.comment
  | .setLabel _ => issue

/-- One request of the call at the index. -/
def request (index : Nat) (fate : Fate) (call : Call) : Deliveries :=
  let issue := deliveries.issue
  match call.phase with
  | .comments read gathered =>
      deliveries.onward index issue
        (if fate = .answered then call.page issue read gathered else call.unread)
  | .labels gathered =>
      deliveries.onward index issue
        (if fate = .answered then call.weigh issue gathered else call.unread)
  | .comment _ =>
      let issue := written fate (posting call.task) issue
      if fate = .answered then deliveries.onward index issue call.relabel
      else deliveries.failed index issue
  | .labelling (old :: left) =>
      let issue := written fate (·.unlabel old) issue
      if fate = .answered then deliveries.onward index issue (call.move (.labelling left))
      else deliveries.failed index issue
  | .labelling [] =>
      let issue := written fate (·.putLabel call.task.label) issue
      if fate = .answered then deliveries.succeeded index issue call.task
      else deliveries.failed index issue

/-- What happens next.  Every verdict and every label asked for has one of the
three labels; people comment and remove labels as they like. -/
def step (deliveries : Deliveries) : Event → Option Deliveries
  | .call task =>
      if task.label ∈ verdictLabels then some (deliveries.start task) else none
  | .request index fate => (deliveries.calls[index]?).map (deliveries.request index fate)
  | .removeLabel label => some { deliveries with issue := deliveries.issue.unlabel label }
  | .comment comment => some { deliveries with issue := deliveries.issue.say comment }
  | .push head => some { deliveries with issue := { deliveries.issue with head := head } }

end Deliveries

/-! ### The condition, and what it keeps -/

/-- The facts a verdict is weighed by tell what was delivered: where the head
has a review's comment but none of this conclusion, another verdict's label is
on and its own is not; and where the conclusion is repeated, its own label is
on or no other is. -/
structure Telling (call : Call) (conclusion : Conclusion) (gathered labels : List String) :
    Prop where
  changed : gathered.any (startsWith conclusion.head) = true →
    conclusion.comment ∉ gathered →
      conclusion.label ∉ labels ∧ another labels conclusion.label = true
  repeated : call.repeats = true →
    conclusion.label ∈ labels ∨ another labels conclusion.label = false

instance (call : Call) (conclusion : Conclusion) (gathered labels : List String) :
    Decidable (Telling call conclusion gathered labels) :=
  decidable_of_iff (_ ∧ _) ⟨fun both => ⟨both.1, both.2⟩, fun tells => ⟨tells.1, tells.2⟩⟩

/-- An unforced verdict is weighed by facts that tell. -/
def Call.Informed (issue : Issue) (fate : Fate) (call : Call) : Prop :=
  match call.phase, call.task with
  | .labels gathered, .verdict conclusion false =>
      fate = .answered → Telling call conclusion gathered issue.labels
  | _, _ => True

/-- The labels a call in its last phase has yet to remove. -/
def Call.left (call : Call) : Option (List String) :=
  match call.phase with
  | .labelling left => some left
  | _ => none

/-- A label is put on only where no other call, for another label, has removed
it and is still to put on its own. -/
def Call.Clear (others : List Call) (fate : Fate) (call : Call) : Prop :=
  call.left = some [] → fate ≠ .refused → ∀ other ∈ others,
    other.task.label ≠ call.task.label → ∀ left ∈ other.left, call.task.label ∈ left

instance (issue : Issue) (fate : Fate) (call : Call) : Decidable (call.Informed issue fate) := by
  unfold Call.Informed
  split <;> infer_instance

instance (others : List Call) (fate : Fate) (call : Call) : Decidable (call.Clear others fate) := by
  unfold Call.Clear
  infer_instance

/-- One verdict label at most. -/
def AtMostOne (labels : List String) : Prop :=
  ∀ first ∈ verdictLabels, ∀ second ∈ verdictLabels,
    first ∈ labels → second ∈ labels → first = second

instance (labels : List String) : Decidable (AtMostOne labels) := by
  unfold AtMostOne
  infer_instance

/-- What holds of a call in flight. -/
structure Call.Sound (issue : Issue) (call : Call) : Prop where
  listed : call.task.label ∈ verdictLabels
  /-- The pages so far are the comments so far. -/
  paged : ∀ read gathered, call.phase = .comments read gathered →
    gathered = issue.comments.take (read * pageSize) ∧
      read * pageSize ≤ issue.comments.length
  gathered : ∀ gathered, call.phase = .labels gathered →
    (∀ comment ∈ gathered, comment ∈ issue.comments) ∧
      ∀ conclusion forced, call.task = .verdict conclusion forced →
        call.repeats = true → conclusion.comment ∈ gathered
  /-- A call that repeats finds its comment. -/
  repeated : ∀ conclusion forced, call.task = .verdict conclusion forced →
    call.repeats = true → conclusion.comment ∈ issue.comments
  /-- It comments again only where it is forced, or its reads failed. -/
  silent : ∀ conclusion, call.task = .verdict conclusion false →
    call.repeats = true → call.phase ≠ .comment true
  said : ∀ left conclusion forced, call.phase = .labelling left →
    call.task = .verdict conclusion forced → conclusion.comment ∈ issue.comments
  /-- What it has removed is off. -/
  removed : ∀ left, call.phase = .labelling left → ∀ label ∈ verdictLabels,
    label ≠ call.task.label → label ∉ left → label ∉ issue.labels

variable {issue grown : Issue} {call : Call} {conclusion : Conclusion}

theorem startsWith_comment : startsWith conclusion.head conclusion.comment = true := by
  simp [startsWith, Conclusion.comment, String.toList_append]

theorem alreadyDelivered_iff {comments labels : List String} {head label : String} :
    alreadyDelivered comments labels head label false = true ↔
      comments.any (startsWith head) = true ∧
        (label ∈ labels ∨ another labels label = false) := by
  cases marked : comments.any (startsWith head) with
  | false | true => simp [alreadyDelivered, marked]

/-- What is known of a call stays known as people comment, and as labels go on
that it has not removed. -/
theorem Call.Sound.later (sound : Call.Sound issue call)
    (comments : ∃ added, grown.comments = issue.comments ++ added)
    (labels : ∀ label ∈ grown.labels, label ∈ issue.labels ∨ label = call.task.label ∨
      ∀ left, call.phase = .labelling left → label ∈ left) :
    Call.Sound grown call := by
  obtain ⟨added, isGrown⟩ := comments
  have stays : ∀ comment ∈ issue.comments, comment ∈ grown.comments := by
    intro comment member
    rw [isGrown]
    exact List.mem_append_left _ member
  refine
    { listed := sound.listed
      paged := ?_
      gathered := ?_
      repeated := fun _ _ isTask repeats => stays _ (sound.repeated _ _ isTask repeats)
      silent := sound.silent
      said := fun _ _ _ phase isTask => stays _ (sound.said _ _ _ phase isTask)
      removed := ?_ }
  · intro read gathered phase
    obtain ⟨isPrefix, room⟩ := sound.paged read gathered phase
    rw [isGrown, List.take_append_of_le_length room]
    exact ⟨isPrefix, by rw [List.length_append]; omega⟩
  · intro gathered phase
    obtain ⟨there, own⟩ := sound.gathered gathered phase
    exact ⟨fun comment member => stays comment (there comment member), own⟩
  · intro left phase label listed isOther notLeft isOn
    rcases labels label isOn with before | own | ahead
    · exact sound.removed left phase label listed isOther notLeft before
    · exact isOther own
    · exact notLeft (ahead left phase)

theorem Call.Sound.relabel (sound : Call.Sound issue call)
    (said : ∀ conclusion forced, call.task = .verdict conclusion forced →
      conclusion.comment ∈ issue.comments) : Call.Sound issue call.relabel where
  listed := sound.listed
  paged _ _ phase := by simp [Call.relabel, Call.move] at phase
  gathered _ phase := by simp [Call.relabel, Call.move] at phase
  repeated := sound.repeated
  silent _ _ _ := by simp [Call.relabel, Call.move]
  said _ conclusion forced _ isTask := said conclusion forced isTask
  removed left phase label listed isOther notLeft := by
    simp only [Call.relabel, Call.move, Phase.labelling.injEq] at phase isOther
    rw [← phase, replaced] at notLeft
    exact absurd (List.mem_filter.mpr ⟨listed, by simpa using isOther⟩) notLeft

theorem Call.Sound.comment (sound : Call.Sound issue call) {wasRead : Bool}
    (silent : wasRead = true → ∀ conclusion, call.task = .verdict conclusion false →
      call.repeats = false) : Call.Sound issue (call.move (.comment wasRead)) where
  listed := sound.listed
  paged _ _ phase := by simp [Call.move] at phase
  gathered _ phase := by simp [Call.move] at phase
  repeated := sound.repeated
  silent conclusion isTask repeats phase := by
    simp only [Call.move, Phase.comment.injEq] at phase isTask repeats
    rw [silent phase conclusion isTask] at repeats
    contradiction
  said _ _ _ phase := by simp [Call.move] at phase
  removed _ phase := by simp [Call.move] at phase

theorem Call.Sound.unread (sound : Call.Sound issue call) : Call.Sound issue call.unread :=
  sound.comment (by simp)

/-- The last page completes what was read. -/
theorem Call.Sound.page (sound : Call.Sound issue call) {read : Nat} {gathered : List String}
    (phase : call.phase = .comments read gathered) :
    Call.Sound issue (call.page issue read gathered) := by
  obtain ⟨isPrefix, room⟩ := sound.paged read gathered phase
  have onward : gathered ++ Paging.page pageSize issue.comments (read + 1) =
      issue.comments.take ((read + 1) * pageSize) := by
    rw [isPrefix, Paging.take_append_page]
  unfold Call.page
  simp only
  split
  · rename_i short
    rw [onward, Paging.take_of_short short]
    exact
      { listed := sound.listed
        paged := by simp [Call.move]
        gathered := by
          intro all isAll
          simp only [Call.move, Phase.labels.injEq] at isAll
          rw [← isAll]
          exact ⟨fun _ member => member, sound.repeated⟩
        repeated := sound.repeated
        silent := by simp [Call.move]
        said := by simp [Call.move]
        removed := by simp [Call.move] }
  · rename_i full
    split
    · exact sound.unread
    · have length := full
      rw [Paging.page, Nat.add_sub_cancel, List.length_take, List.length_drop] at length
      exact
        { listed := sound.listed
          paged := by
            intro pages all isAll
            simp only [Call.move, Phase.comments.injEq] at isAll
            obtain ⟨isRead, isGathered⟩ := isAll
            rw [← isRead, ← isGathered]
            refine ⟨onward, ?_⟩
            rw [Nat.succ_mul]
            unfold pageSize at length room ⊢
            omega
          gathered := by simp [Call.move]
          repeated := sound.repeated
          silent := by simp [Call.move]
          said := by simp [Call.move]
          removed := by simp [Call.move] }

/-- Weighed by facts that tell, a verdict is passed by as delivered only where
its comment is there, and one that is repeated always is. -/
theorem Call.Sound.weigh (sound : Call.Sound issue call) {gathered : List String}
    (phase : call.phase = .labels gathered)
    (telling : ∀ conclusion, call.task = .verdict conclusion false →
      Telling call conclusion gathered issue.labels) :
    Call.Sound issue (call.weigh issue gathered) := by
  obtain ⟨there, own⟩ := sound.gathered gathered phase
  unfold Call.weigh
  cases task : call.task with
  | setLabel label => exact sound.relabel (by simp [task])
  | verdict conclusion forced =>
      simp only
      cases forced with
      | true =>
          rw [alreadyDelivered, if_pos rfl, if_neg (by simp)]
          exact sound.comment (by simp [task])
      | false =>
          obtain ⟨changed, repeated⟩ := telling conclusion task
          split
          · rename_i delivered
            refine sound.relabel ?_
            intro same forced isTask
            rw [task] at isTask
            cases isTask
            by_contra absent
            obtain ⟨marked, alike⟩ := alreadyDelivered_iff.mp delivered
            obtain ⟨offOwn, onOther⟩ := changed marked fun member => absent (there _ member)
            rcases alike with isOn | none
            · exact offOwn isOn
            · rw [onOther] at none
              contradiction
          · rename_i undelivered
            refine sound.comment ?_
            intro _ same isTask
            rw [task] at isTask
            cases isTask
            by_contra repeats
            have again := Bool.not_eq_false _ ▸ repeats
            have marked : gathered.any (startsWith conclusion.head) = true :=
              List.any_eq_true.mpr ⟨_, own conclusion false task again, startsWith_comment⟩
            exact undelivered (alreadyDelivered_iff.mpr ⟨marked, repeated again⟩)

namespace Deliveries

/-- The condition on a step. -/
def Fit (before : Deliveries) (event : Event) (_ : Deliveries) : Prop :=
  match event with
  | .request index fate =>
      ∀ call ∈ before.calls[index]?, call.Informed before.issue fate ∧
        call.Clear (before.calls.eraseIdx index) fate
  | _ => True

instance (before : Deliveries) (event : Event) (after : Deliveries) :
    Decidable (Fit before event after) := by
  unfold Fit
  split <;> infer_instance

structure Sound (deliveries : Deliveries) : Prop where
  calls : ∀ call ∈ deliveries.calls, Call.Sound deliveries.issue call
  single : AtMostOne deliveries.issue.labels
  delivered : ∀ conclusion ∈ deliveries.delivered,
    conclusion.comment ∈ deliveries.issue.comments

variable {deliveries after : Deliveries} {event : Event}

/-- An issue on which more is said and no label put. -/
structure Later (issue grown : Issue) : Prop where
  comments : ∃ added, grown.comments = issue.comments ++ added
  labels : ∀ label ∈ grown.labels, label ∈ issue.labels

theorem later_refl : Later issue issue := ⟨⟨[], by simp⟩, fun _ isOn => isOn⟩

theorem later_say {comment : String} : Later issue (issue.say comment) :=
  ⟨⟨[comment], rfl⟩, fun _ isOn => isOn⟩

theorem later_unlabel {label : String} : Later issue (issue.unlabel label) :=
  ⟨⟨[], by simp [Issue.unlabel]⟩, fun _ isOn => List.mem_of_mem_filter isOn⟩

theorem later_written {fate : Fate} {effect : Issue → Issue} (later : Later issue (effect issue)) :
    Later issue (written fate effect issue) := by
  unfold written
  split
  · exact later_refl
  · exact later

theorem later_posting {task : Task} : Later issue (posting task issue) := by
  cases task with
  | verdict conclusion forced => exact later_say
  | setLabel label => exact later_refl

/-- What is kept stays kept on a later issue, whatever calls are dropped or go
on soundly there. -/
theorem Sound.later (sound : deliveries.Sound) (later : Later deliveries.issue grown)
    (calls : List Call)
    (each : ∀ call ∈ calls, call ∈ deliveries.calls ∨ Call.Sound grown call) :
    Sound { deliveries with issue := grown, calls := calls } where
  calls call member := by
    rcases each call member with before | new
    · exact (sound.calls call before).later later.comments fun label isOn =>
        .inl (later.labels label isOn)
    · exact new
  single first firstListed second secondListed firstOn secondOn :=
    sound.single first firstListed second secondListed (later.labels _ firstOn)
      (later.labels _ secondOn)
  delivered conclusion member := by
    obtain ⟨added, isGrown⟩ := later.comments
    change conclusion.comment ∈ grown.comments
    rw [isGrown]
    exact List.mem_append_left _ (sound.delivered conclusion member)

theorem Sound.onward (sound : deliveries.Sound) {index : Nat}
    (later : Later deliveries.issue grown) (new : Call.Sound grown call) :
    (deliveries.onward index grown call).Sound := by
  refine sound.later later _ ?_
  intro other member
  rcases List.mem_or_eq_of_mem_set member with before | isNew
  · exact .inl before
  · exact .inr (isNew ▸ new)

theorem Sound.failed (sound : deliveries.Sound) {index : Nat}
    (later : Later deliveries.issue grown) : (deliveries.failed index grown).Sound :=
  sound.later later _ fun _ member => .inl (List.mem_of_mem_eraseIdx member)

theorem Sound.start (sound : deliveries.Sound) {task : Task}
    (listed : task.label ∈ verdictLabels) : (deliveries.start task).Sound := by
  cases task with
  | verdict conclusion forced =>
      have fresh : Call.Sound deliveries.issue
          { task := .verdict conclusion forced
            phase := .comments 0 []
            repeats := deliveries.latest = some conclusion &&
              deliveries.issue.comments.contains conclusion.comment } :=
        { listed := listed
          paged := by
            intro read gathered phase
            cases phase
            simp
          gathered := by simp
          repeated := by
            intro same _ isTask repeats
            cases isTask
            simp only [Bool.and_eq_true, List.contains_iff_mem] at repeats
            exact repeats.2
          silent := by simp
          said := by simp
          removed := by simp }
      have kept := sound.later later_refl (deliveries.calls ++ [_]) (by
        intro call member
        rcases List.mem_append.mp member with before | new
        · exact .inl before
        · exact .inr (List.mem_singleton.mp new ▸ fresh))
      exact ⟨kept.calls, kept.single, kept.delivered⟩
  | setLabel label =>
      refine sound.later later_refl _ ?_
      intro call member
      rcases List.mem_append.mp member with before | new
      · exact .inl before
      · refine .inr (List.mem_singleton.mp new ▸ ?_)
        exact
          { listed := listed
            paged := by simp
            gathered := by simp
            repeated := by simp
            silent := by simp
            said := by simp
            removed := by
              intro left phase other isListed isOther notLeft
              cases phase
              exact absurd (List.mem_filter.mpr
                ⟨isListed, by simpa [Task.label] using isOther⟩) notLeft }

/-- Where the other verdicts' labels are off, a label put on stands alone. -/
theorem putLabel_alone {label : String}
    (off : ∀ other ∈ verdictLabels, other ≠ label → other ∉ issue.labels) :
    ∀ other ∈ verdictLabels, other ∈ (issue.putLabel label).labels ↔ other = label := by
  intro other listed
  by_cases same : other = label
  · simp only [same, iff_true]
    unfold Issue.putLabel
    by_cases isOn : label ∈ issue.labels <;> simp [isOn]
  · simp only [same, iff_false]
    unfold Issue.putLabel
    by_cases isOn : label ∈ issue.labels <;> simp [isOn, off other listed same, same]

/-- A label put on where no other call will find it removed is sound, and then
stands alone. -/
theorem Sound.put (sound : deliveries.Sound) {index : Nat} {fate : Fate}
    (present : deliveries.calls[index]? = some call) (phase : call.phase = .labelling [])
    (clear : call.Clear (deliveries.calls.eraseIdx index) fate) :
    (deliveries.failed index
      (written fate (·.putLabel call.task.label) deliveries.issue)).Sound := by
  by_cases refused : fate = .refused
  · rw [written, if_pos refused]
    exact sound.failed later_refl
  · rw [written, if_neg refused]
    have own := sound.calls call (List.mem_of_getElem? present)
    have alone := putLabel_alone fun other listed isOther =>
      own.removed [] phase other listed isOther List.not_mem_nil
    constructor
    · intro other member
      have before := sound.calls other (List.mem_of_mem_eraseIdx member)
      refine before.later ⟨[], (List.append_nil _).symm⟩ ?_
      intro label isOn
      by_cases isOwn : label = call.task.label
      · by_cases alike : other.task.label = call.task.label
        · exact .inr (.inl (isOwn.trans alike.symm))
        · refine .inr (.inr fun left isLeft => isOwn ▸ ?_)
          exact clear (by simp [Call.left, phase]) refused other member alike left
            (by simp [Call.left, isLeft])
      · refine .inl ?_
        change label ∈ (deliveries.issue.putLabel call.task.label).labels at isOn
        unfold Issue.putLabel at isOn
        split at isOn
        · exact isOn
        · exact (List.mem_append.mp isOn).resolve_right
            fun isLast => isOwn (List.mem_singleton.mp isLast)
    · intro first firstListed second secondListed firstOn secondOn
      rw [(alone first firstListed).mp firstOn, (alone second secondListed).mp secondOn]
    · exact sound.delivered

theorem written_putLabel_comments {fate : Fate} {label : String} :
    (written fate (·.putLabel label) issue).comments = issue.comments := by
  unfold written
  split <;> rfl

theorem Sound.succeeded {index : Nat} {task : Task} (kept : (deliveries.failed index grown).Sound)
    (said : ∀ conclusion forced, task = .verdict conclusion forced →
      conclusion.comment ∈ grown.comments) :
    (deliveries.succeeded index grown task).Sound := by
  refine ⟨kept.calls, kept.single, ?_⟩
  intro conclusion member
  cases task with
  | setLabel label => exact kept.delivered conclusion member
  | verdict same forced =>
      rcases List.mem_cons.mp member with isSame | before
      · exact isSame ▸ said same forced (Eq.refl _)
      · exact kept.delivered conclusion before

theorem Sound.request (sound : deliveries.Sound) {index : Nat} {fate : Fate}
    (present : deliveries.calls[index]? = some call)
    (fit : deliveries.Fit (.request index fate) after) :
    (deliveries.request index fate call).Sound := by
  have own := sound.calls call (List.mem_of_getElem? present)
  obtain ⟨informed, clear⟩ := fit call present
  unfold Deliveries.request
  dsimp only
  split
  · rename_i read gathered phase
    split
    · exact sound.onward later_refl (own.page phase)
    · exact sound.onward later_refl own.unread
  · rename_i gathered phase
    split
    · rename_i answered
      refine sound.onward later_refl (own.weigh phase fun conclusion task => ?_)
      simp only [Call.Informed, phase, task] at informed
      exact informed answered
    · exact sound.onward later_refl own.unread
  · split
    · rename_i answered
      refine sound.onward (later_written later_posting) ?_
      have grown : Later deliveries.issue (written fate (posting call.task) deliveries.issue) :=
        later_written later_posting
      refine (own.later grown.comments fun label isOn => .inl (grown.labels label isOn)).relabel ?_
      intro conclusion forced task
      simp [written, answered, posting, task, Issue.say]
    · exact sound.failed (later_written later_posting)
  · rename_i old left phase
    have grown : Later deliveries.issue (written fate (·.unlabel old) deliveries.issue) :=
      later_written later_unlabel
    split
    · rename_i answered
      refine sound.onward grown ?_
      have kept := own.later grown.comments fun label isOn => .inl (grown.labels label isOn)
      exact
        { listed := kept.listed
          paged := by simp [Call.move]
          gathered := by simp [Call.move]
          repeated := kept.repeated
          silent := by simp [Call.move]
          said := fun _ conclusion forced _ task => kept.said _ conclusion forced phase task
          removed := by
            intro now isNow label listed isOther notNow isOn
            simp only [Call.move, Phase.labelling.injEq] at isNow isOther
            subst isNow
            by_cases isOld : label = old
            · simp [written, answered, Issue.unlabel, isOld] at isOn
            · exact kept.removed _ phase label listed isOther (by simp [isOld, notNow]) isOn }
    · exact sound.failed grown
  · rename_i phase
    have kept := sound.put present phase clear
    split
    · refine kept.succeeded ?_
      intro conclusion forced task
      rw [written_putLabel_comments]
      exact own.said _ conclusion forced phase task
    · exact kept

theorem Sound.step (sound : deliveries.Sound) (taken : deliveries.step event = some after)
    (fit : deliveries.Fit event after) : after.Sound := by
  cases event with
  | call task =>
      obtain ⟨listed, isAfter⟩ := Option.ite_none_right_eq_some.mp taken
      cases isAfter
      exact sound.start listed
  | request index fate =>
      obtain ⟨call, present, isAfter⟩ := Option.map_eq_some_iff.mp taken
      cases isAfter
      exact sound.request present fit
  | removeLabel label =>
      cases taken
      exact sound.later later_unlabel _ fun _ member => .inl member
  | comment comment =>
      cases taken
      exact sound.later later_say _ fun _ member => .inl member
  | push head =>
      have moved : Later deliveries.issue { deliveries.issue with head := head } :=
        ⟨⟨[], (List.append_nil _).symm⟩, fun _ isOn => isOn⟩
      cases taken
      exact sound.later moved _ fun _ member => .inl member

theorem opened_sound {head : String} : (opened head).Sound where
  calls := by simp [opened]
  single := by simp [AtMostOne, opened]
  delivered := by simp [opened]

/-! ### Delivery -/

/-- A step says nothing a second time: an unforced call for the latest
conclusion, whose comment was there, leaves the comments alone unless its reads
failed.  And a call that succeeds leaves its label the only verdict's. -/
def Once (before : Deliveries) (event : Event) (after : Deliveries) : Prop :=
  ∀ index fate call, event = .request index fate → before.calls[index]? = some call →
    (∀ conclusion, call.task = .verdict conclusion false → call.repeats = true →
      call.phase ≠ .comment false → after.issue.comments = before.issue.comments) ∧
    (call.phase = .labelling [] → fate = .answered →
      ∀ label ∈ verdictLabels, label ∈ after.issue.labels ↔ label = call.task.label)

theorem Sound.once (sound : deliveries.Sound) (taken : deliveries.step event = some after) :
    deliveries.Once event after := by
  intro index fate call isRequest present
  subst isRequest
  obtain ⟨same, found, isAfter⟩ := Option.map_eq_some_iff.mp taken
  cases present.symm.trans found
  have own := sound.calls call (List.mem_of_getElem? present)
  constructor
  · intro conclusion task repeats wasRead
    rw [← isAfter]
    unfold Deliveries.request
    cases phase : call.phase with
    | comments | labels => rfl
    | comment read =>
        cases read with
        | false => exact absurd phase wasRead
        | true => exact absurd phase (own.silent conclusion task repeats)
    | labelling left =>
        cases left with
        | nil =>
            dsimp only
            split <;> exact written_putLabel_comments
        | cons old left =>
            have unsaid : (written fate (·.unlabel old) deliveries.issue).comments =
                deliveries.issue.comments := by
              unfold written
              split <;> rfl
            dsimp only
            split <;> exact unsaid
  · intro phase answered label listed
    have alone := putLabel_alone fun other isListed isOther =>
      own.removed [] phase other isListed isOther List.not_mem_nil
    rw [← isAfter]
    unfold Deliveries.request
    simp only [phase, answered, if_true, written, reduceCtorEq, if_false]
    exact alone label listed

/-- Along a run whose steps all fit, each verdict that was delivered has its own
comment, at rest there is one verdict label at most, nothing is said twice, and
whoever succeeds leaves its label alone. -/
theorem verdict_delivered_once {head : String} {events : List Event} {final : Deliveries}
    (fit : Along step Fit (opened head) events)
    (ran : run step (opened head) events = some final) :
    (∀ conclusion ∈ final.delivered, conclusion.comment ∈ final.issue.comments) ∧
      (final.calls = [] → AtMostOne final.issue.labels) ∧
      Along step Once (opened head) events := by
  have sound := fit.run_invariant Sound (fun _ _ _ sound taken fit => sound.step taken fit)
    opened_sound ran
  refine ⟨sound.delivered, fun _ => sound.single, ?_⟩
  exact fit.of_invariant Sound (fun _ _ _ sound taken fit => sound.step taken fit)
    (fun _ _ _ sound taken _ => sound.once taken) opened_sound

/-- Requests of the only call, all answered. -/
def answered (count : Nat) : List Event := List.replicate count (.request 0 .answered)

def needsHuman : Conclusion := ⟨"a", "needs-human-review", "unsure"⟩

def approves : Conclusion := ⟨"a", "loop-approved", "fine"⟩

/-- A verdict delivered, changed at the head, and the second delivered too. -/
theorem verdict_delivered_once_changed :
    ∃ final, run step (opened "a")
        (.call (.verdict needsHuman false) :: answered 6 ++
          .call (.verdict approves false) :: answered 6) = some final ∧
      (∀ conclusion ∈ final.delivered, conclusion.comment ∈ final.issue.comments) ∧
        final.delivered = [approves, needsHuman] ∧ final.issue.labels = ["loop-approved"] := by
  have whole : (run step (opened "a")
      (.call (.verdict needsHuman false) :: answered 6 ++
        .call (.verdict approves false) :: answered 6)).map (fun final =>
          (final.delivered, final.issue.labels)) =
        some ([approves, needsHuman], ["loop-approved"]) := by decide +kernel
  obtain ⟨final, ran, both⟩ := Option.map_eq_some_iff.mp whole
  obtain ⟨delivered, labels⟩ := Prod.mk.inj both
  exact ⟨final, ran, (verdict_delivered_once (by decide +kernel) ran).1, delivered, labels⟩

/-- With its label stripped, a verdict hides the next one at its head; a label
that could not be replaced has a comment posted twice; and two deliveries side
by side leave two labels. -/
theorem verdict_lost_or_doubled :
    (∃ final, run step (opened "a")
        (.call (.verdict needsHuman false) :: answered 6 ++
          .removeLabel "needs-human-review" :: .call (.verdict approves false) :: answered 5) =
            some final ∧
      approves ∈ final.delivered ∧ approves.comment ∉ final.issue.comments) ∧
    (∃ final, run step (opened "a")
        (.call (.verdict needsHuman false) :: answered 6 ++
          .call (.verdict approves false) :: answered 3 ++ .request 0 .refused ::
            .call (.verdict approves false) :: answered 3) = some final ∧
      final.issue.comments.count approves.comment = 2) ∧
    ∃ final, run step (opened "a")
        [.call (.setLabel "loop-approved"), .call (.setLabel "loop-changes-requested"),
          .request 0 .answered, .request 0 .answered, .request 1 .answered,
          .request 1 .answered, .request 1 .answered, .request 0 .answered] = some final ∧
      final.calls = [] ∧ ¬ AtMostOne final.issue.labels := by
  refine ⟨⟨_, rfl, ?_⟩, ⟨_, rfl, ?_⟩, _, rfl, ?_⟩
  · decide +kernel
  · decide +kernel
  · decide +kernel

end Deliveries

end NookOs.Forge.Verdict
