import CodeAtlas.Hosting.Clone
import CodeAtlas.Proofs.Text
import CodeAtlas.Proofs.Workspace

/-!
Two readings of the address of a repository: from the front, for cloning, and from the end, for the
label of an analysis. A `Reading` cuts an address into the pieces that the first one tells apart.

Main statement: the two name the same repository exactly if the address is plain, with nothing but
slashes behind the repository, or if it happens to end with owner and name once more. The address of
a branch or of a file is cloned as its repository and labelled otherwise.
-/

namespace CodeAtlas.Hosting

open List
open String (append_empty toList_append toList_empty toList_eq_nil_iff toList_inj toList_ofList)

variable {address part : String} {report : Json}

open Text (split split_append split_of_free mem_split join_split)

/-! ## Reading from the end -/

/-- The label that the parts of an address give, the last of them first. -/
def labelOf : List String → Option Label
  | name :: owner :: _ => some ⟨owner, Text.replace name nameEnding ""⟩
  | _ => none

/-- The parts of an address from the last that is not empty on, the last of them first. -/
def closingParts (address : String) : List String :=
  (split address "/").reverse.dropWhile (· == "")

theorem split_of_slashes {text : String} (slashes : ∀ char ∈ text.toList, char = '/') :
    ∀ part ∈ split text "/", part = "" := by
  intro part member
  have ⟨free, inside⟩ := mem_split member
  rw [← toList_inj, toList_empty, eq_nil_iff_forall_not_mem]
  intro char here
  exact free (slashes char (inside char here) ▸ here)

theorem slashes_of_split {text : String} (empty : ∀ part ∈ split text "/", part = "") :
    ∀ char ∈ text.toList, char = '/' := by
  intro char member
  rw [← join_split text] at member
  rcases Path.mem_toList_join member with mark | ⟨part, isPart, inside⟩
  · exact mark
  · rw [empty part isPart] at inside
    cases inside

theorem closingParts_append {text slashes : String} (only : ∀ char ∈ slashes.toList, char = '/') :
    closingParts (text ++ slashes) = closingParts text := by
  cases written : slashes.toList with
  | nil => rw [toList_eq_nil_iff.mp written, append_empty]
  | cons char rest =>
    have slash : slashes = "/" ++ String.ofList rest := by
      rw [← toList_inj, written, only char (written ▸ mem_cons_self)]
      simp
    have empty : ∀ part ∈ split (String.ofList rest) "/", part = "" := by
      apply split_of_slashes
      intro char member
      rw [toList_ofList] at member
      exact only char (written ▸ mem_cons_of_mem _ member)
    rw [closingParts, slash, ← String.append_assoc, split_append, reverse_append,
      dropWhile_append_of_pos, closingParts]
    intro part member
    rw [beq_iff_eq]
    exact empty part (mem_reverse.mp member)

theorem exists_slashes (address : String) : ∃ slashes : String,
    address = Text.stripRightChars address ['/'] ++ slashes ∧
      ∀ char ∈ slashes.toList, char = '/' := by
  rcases Text.Chars.trimRight_append (['/'].contains ·) address.toList with ⟨tail, whole, removed⟩
  refine ⟨.ofList tail, ?_, ?_⟩
  · rw [← toList_inj]
    simpa [Text.stripRightChars] using whole
  · intro char member
    simpa using removed char (by simpa using member)

theorem last_ne_empty {last : String} {before : List String} (more : before ≠ [])
    (parts : split (Text.stripRightChars address ['/']) "/" = before ++ [last]) : last ≠ "" := by
  rintro rfl
  have joined := join_split (Text.stripRightChars address ['/'])
  rw [parts, Text.join_concat _ _ more, ← toList_inj] at joined
  have trimmed : Text.Chars.trimRight (['/'].contains ·) address.toList =
      (Text.join "/" before).toList ++ ['/'] := by
    simpa [Text.stripRightChars] using joined.symm
  exact absurd trimmed (Text.Chars.trimRight_ne_concat _ (by decide))

theorem lastParts?_eq (address : String) : lastParts? address = labelOf (closingParts address) := by
  have parts : lastParts? address =
      labelOf (split (Text.stripRightChars address ['/']) "/").reverse := by
    rw [lastParts?]
    rcases (split (Text.stripRightChars address ['/']) "/").reverse with _ | ⟨_, _ | _⟩ <;> rfl
  rcases exists_slashes address with ⟨slashes, stripped, only⟩
  have closing : closingParts address = closingParts (Text.stripRightChars address ['/']) := by
    conv_lhs => rw [stripped]
    exact closingParts_append only
  rw [parts, closing, closingParts]
  rcases eq_nil_or_concat' (split (Text.stripRightChars address ['/']) "/") with
    empty | ⟨before, last, ends⟩
  · exact absurd empty (Text.split_ne_nil _)
  · rw [ends, reverse_concat]
    by_cases filled : last = ""
    · cases before with
      | nil => simp [filled, labelOf]
      | cons first others => exact absurd filled (last_ne_empty (cons_ne_nil _ _) ends)
    · simp [filled]

/-! ## Reading from the front -/

/-- How an address can be read from the front: blanks, the scheme and the service if they are
written, the owner and the repository, and whatever follows. -/
structure Reading where
  lead : String
  scheme : String
  service : String
  owner : String
  repository : String
  more : String
  trail : String
  leadBlank : ∀ char ∈ lead.toList, Text.isBlank char = true
  schemeKnown : scheme ∈ ["", "https://", "http://"]
  serviceKnown : service ∈ ["", "www.", "github.com/", "www.github.com/"]
  ownerWhole : '/' ∉ owner.toList
  repositoryWhole : '/' ∉ repository.toList
  moreApart : more = "" ∨ ∃ rest, more = "/" ++ rest
  trailBlank : ∀ char ∈ trail.toList, Text.isBlank char = true

namespace Reading

def front (reading : Reading) : String := reading.lead ++ reading.scheme ++ reading.service

def tail (reading : Reading) : String := reading.repository ++ reading.more ++ reading.trail

def text (reading : Reading) : String := reading.front ++ reading.owner ++ "/" ++ reading.tail

/-- The name of the repository, without one ending. -/
def name (reading : Reading) : String :=
  (Text.dropEnding? reading.repository nameEnding).getD reading.repository

def target (reading : Reading) : CloneTarget :=
  ⟨if reading.scheme = "http://" then "http://" else "https://", reading.owner, reading.name⟩

def label (reading : Reading) : Label := ⟨reading.owner, reading.name⟩

/-- Nothing but slashes follows the repository, its name holds no further ending, and nothing is
written in front of the owner without a slash. -/
structure IsPlain (reading : Reading) : Prop where
  opened : reading.front = "" ∨ ∃ before, reading.front = before ++ "/"
  filled : reading.repository ≠ ""
  bare : Text.contains reading.name nameEnding = false
  slashes : ∀ char ∈ reading.more.toList, char = '/'
  closed : reading.trail = ""

variable (reading : Reading)

theorem not_slash_of_blank {char : Char} (blank : Text.isBlank char = true) : char ≠ '/' := by
  rintro rfl
  exact absurd blank (by decide)

theorem trailWhole : '/' ∉ reading.trail.toList :=
  fun member => not_slash_of_blank (reading.trailBlank '/' member) rfl

/-! ### The parts of the tail -/

theorem eq_of_dropWhile_singleton {text : String} (single : [text].dropWhile (· == "") = [part]) :
    part = text ∧ part ≠ "" := by
  by_cases empty : text = ""
  · simp [empty] at single
  · have same : text = part := by simpa [empty] using single
    exact ⟨same.symm, same ▸ empty⟩

theorem closingParts_tail_singleton (single : closingParts reading.tail = [part]) :
    part ≠ "" ∧ ((part = reading.repository ++ reading.trail ∧ reading.more = "") ∨
      (part = reading.repository ∧ (∀ char ∈ reading.more.toList, char = '/') ∧
        reading.trail = "")) := by
  rcases reading.moreApart with none | ⟨rest, apart⟩
  · have whole : '/' ∉ (reading.repository ++ reading.trail).toList := by
      rw [toList_append, mem_append]
      exact not_or.mpr ⟨reading.repositoryWhole, reading.trailWhole⟩
    rw [closingParts, tail, none, append_empty, split_of_free whole, reverse_singleton] at single
    have ⟨same, filled⟩ := eq_of_dropWhile_singleton single
    exact ⟨filled, .inl ⟨same, none⟩⟩
  · have regroup : reading.tail = reading.repository ++ "/" ++ (rest ++ reading.trail) := by
      rw [tail, apart]
      simp only [String.append_assoc]
    rw [closingParts, regroup, split_append, split_of_free reading.repositoryWhole,
      singleton_append, reverse_cons, dropWhile_append] at single
    split at single
    · rename_i empty
      rw [List.isEmpty_iff, List.dropWhile_eq_nil_iff] at empty
      have ⟨same, filled⟩ := eq_of_dropWhile_singleton single
      have slashes : ∀ char ∈ (rest ++ reading.trail).toList, char = '/' :=
        slashes_of_split fun part member => by
          simpa using empty part (mem_reverse.mpr member)
      rw [toList_append] at slashes
      refine ⟨filled, .inr ⟨same, ?_, ?_⟩⟩
      · rw [apart, toList_append]
        intro char member
        rcases mem_append.mp member with slash | inside
        · exact mem_singleton.mp slash
        · exact slashes char (mem_append_left _ inside)
      · rw [← toList_inj, toList_empty, eq_nil_iff_forall_not_mem]
        intro char member
        exact not_slash_of_blank (reading.trailBlank char member)
          (slashes char (mem_append_right _ member))
    · rename_i filled
      have one := congrArg List.length single
      rw [length_append, length_singleton, length_singleton] at one
      rw [List.isEmpty_iff, ← List.length_eq_zero_iff] at filled
      omega

theorem IsPlain.closingParts_tail {reading : Reading} (plain : reading.IsPlain) :
    closingParts reading.tail = [reading.repository] := by
  rw [tail, plain.closed, append_empty, closingParts_append plain.slashes, closingParts,
    split_of_free reading.repositoryWhole]
  simp [plain.filled]

/-! ### The parts before the tail -/

theorem leadWhole : '/' ∉ reading.lead.toList :=
  fun member => not_slash_of_blank (reading.leadBlank '/' member) rfl

theorem scheme_cases : reading.scheme = "" ∨
    ∃ word, reading.scheme = word ++ "/" ++ "/" ∧ '/' ∉ word.toList ∧ 'h' ∈ word.toList := by
  have known := reading.schemeKnown
  simp only [mem_cons, not_mem_nil, or_false] at known
  rcases known with same | same | same
  · exact .inl same
  · exact .inr ⟨"https:", same, by decide, by decide⟩
  · exact .inr ⟨"http:", same, by decide, by decide⟩

theorem service_cases : reading.service = "" ∨ reading.service = "www." ∨
    ∃ host, reading.service = host ++ "/" ∧ '/' ∉ host.toList ∧ 'h' ∈ host.toList := by
  have known := reading.serviceKnown
  simp only [mem_cons, not_mem_nil, or_false] at known
  rcases known with same | same | same | same
  · exact .inl same
  · exact .inr (.inl same)
  · exact .inr (.inr ⟨"github.com", same, by decide, by decide⟩)
  · exact .inr (.inr ⟨"www.github.com", same, by decide, by decide⟩)

/-- What stands before the owner has no slash, or its last slash follows parts that are empty or
hold an h. -/
theorem front_cases : '/' ∉ reading.front.toList ∨
    ∃ before rest, reading.front = before ++ "/" ++ rest ∧ (rest = "" ∨ rest = "www.") ∧
      ∀ part ∈ split before "/", part = "" ∨ 'h' ∈ part.toList := by
  have leading : ∀ word : String, '/' ∉ word.toList → 'h' ∈ word.toList →
      ∀ part ∈ split (reading.lead ++ word) "/", 'h' ∈ part.toList := by
    intro word whole held part member
    rw [split_of_free (by simp [reading.leadWhole, whole]), mem_singleton] at member
    simp [member, held]
  rcases reading.scheme_cases with noScheme | ⟨word, scheme, wordWhole, wordHeld⟩
  · rcases reading.service_cases with none | www | ⟨host, service, hostWhole, hostHeld⟩
    · left
      simp [front, noScheme, none, reading.leadWhole]
    · left
      simp [front, noScheme, www, reading.leadWhole]
    · right
      refine ⟨reading.lead ++ host, "", ?_, .inl rfl, fun part member =>
        .inr (leading host hostWhole hostHeld part member)⟩
      simp [front, noScheme, service, String.append_assoc]
  · right
    have start : ∀ part ∈ split (reading.lead ++ word ++ "/" ++ "") "/",
        part = "" ∨ 'h' ∈ part.toList := by
      intro part member
      rw [split_append, mem_append] at member
      rcases member with inside | empty
      · exact .inr (leading word wordWhole wordHeld part inside)
      · exact .inl (by simpa [split_of_free] using empty)
    rcases reading.service_cases with none | www | ⟨host, service, hostWhole, hostHeld⟩
    · refine ⟨reading.lead ++ word ++ "/" ++ "", "", ?_, .inl rfl, start⟩
      simp [front, scheme, none, String.append_assoc]
    · refine ⟨reading.lead ++ word ++ "/" ++ "", "www.", ?_, .inr rfl, start⟩
      simp [front, scheme, www, String.append_assoc]
    · refine ⟨reading.lead ++ word ++ "/" ++ "" ++ "/" ++ host, "", ?_, .inl rfl, ?_⟩
      · simp [front, scheme, service, String.append_assoc]
      · intro part member
        rw [split_append, mem_append] at member
        rcases member with inside | last
        · exact start part inside
        · rw [split_of_free hostWhole, mem_singleton] at last
          exact .inr (last ▸ hostHeld)

theorem split_front : ∃ before word, split (reading.front ++ reading.owner) "/" =
      before ++ [word ++ reading.owner] ∧
    (∀ part ∈ before, part = "" ∨ 'h' ∈ part.toList) ∧
    (word = "" ↔ reading.front = "" ∨ ∃ before, reading.front = before ++ "/") ∧
    (before = [] ∨ word = "" ∨ word = "www.") := by
  rcases reading.front_cases with whole | ⟨before, rest, front, known, parts⟩
  · have free : '/' ∉ (reading.front ++ reading.owner).toList := by
      simp [whole, reading.ownerWhole]
    refine ⟨[], reading.front, split_of_free free, nofun, ?_, .inl rfl⟩
    have closed : ¬ ∃ before, reading.front = before ++ "/" := by
      rintro ⟨before, ends⟩
      simp [ends] at whole
    simp [closed]
  · refine ⟨split before "/", rest, ?_, parts, ?_, .inr known⟩
    · have free : '/' ∉ (rest ++ reading.owner).toList := by
        rcases known with rfl | rfl
        · simp [reading.ownerWhole]
        · simp [reading.ownerWhole]
      rw [front, String.append_assoc, split_append, split_of_free free]
    · rcases known with rfl | rfl
      · rw [append_empty] at front
        simpa using Or.inr ⟨before, front⟩
      · constructor
        · exact fun empty => absurd empty (by decide)
        · rw [front]
          rintro (empty | ⟨other, ends⟩)
          · have none := congrArg String.toList empty
            simp at none
          · have last := congrArg (fun text => text.toList.getLast?) ends
            simp at last

/-! ### Taking the ending out -/

theorem countP_replace (test : Char → Bool) (outside : ∀ char ∈ nameEnding.toList, test char = false)
    (text : String) :
    (Text.replace text nameEnding "").toList.countP test = text.toList.countP test := by
  rw [Text.replace, toList_ofList]
  exact Text.Chars.countP_replace test (by decide) outside text.toList

theorem replace_eq_self_iff (text : String) :
    Text.replace text nameEnding "" = text ↔ Text.contains text nameEnding = false := by
  rw [← toList_inj, Text.replace, toList_ofList, ← Bool.not_eq_true, Text.contains_iff]
  exact Text.Chars.replace_eq_self_iff (by decide) text.toList

theorem replace_append_ending (text : String) :
    Text.replace (text ++ nameEnding) nameEnding "" = Text.replace text nameEnding "" := by
  have apart : ∀ count < nameEnding.toList.length, 0 < count →
      ¬ nameEnding.toList.drop count <+: nameEnding.toList := by decide
  rw [Text.replace, Text.replace, toList_append]
  exact congrArg String.ofList (Text.Chars.replace_append_part (by decide) apart text.toList)

theorem replace_repository_iff : Text.replace reading.repository nameEnding "" = reading.name ↔
    Text.contains reading.name nameEnding = false := by
  rw [name]
  cases ending : Text.dropEnding? reading.repository nameEnding with
  | none => exact replace_eq_self_iff reading.repository
  | some start =>
    rw [Text.dropEnding?_eq_some_iff] at ending
    rw [ending, replace_append_ending, Option.getD_some]
    exact replace_eq_self_iff start

theorem countP_name (test : Char → Bool) (outside : ∀ char ∈ nameEnding.toList, test char = false) :
    reading.name.toList.countP test = reading.repository.toList.countP test := by
  rw [name]
  cases ending : Text.dropEnding? reading.repository nameEnding with
  | none => rfl
  | some start =>
    rw [Text.dropEnding?_eq_some_iff] at ending
    have none : nameEnding.toList.countP test = 0 :=
      countP_eq_zero.mpr fun char member => by simp [outside char member]
    rw [ending, Option.getD_some, toList_append, countP_append, none, Nat.add_zero]

theorem trail_eq_empty
    (same : Text.replace (reading.repository ++ reading.trail) nameEnding "" = reading.name) :
    reading.trail = "" := by
  have filled : (nameEnding.toList.all fun char => !Text.isBlank char) = true := by decide
  have outside : ∀ char ∈ nameEnding.toList, Text.isBlank char = false := by
    simpa using all_eq_true.mp filled
  have blanks := countP_replace Text.isBlank outside (reading.repository ++ reading.trail)
  rw [same, reading.countP_name Text.isBlank outside, toList_append, countP_append]
    at blanks
  have all := countP_eq_length.mpr reading.trailBlank
  have none : reading.trail.toList.length = 0 := by omega
  exact toList_eq_nil_iff.mp (length_eq_zero_iff.mp none)

/-! ### Both readings -/

theorem closingParts_text : closingParts reading.text =
    if closingParts reading.tail = [] then closingParts (reading.front ++ reading.owner)
    else closingParts reading.tail ++ (split (reading.front ++ reading.owner) "/").reverse := by
  rw [closingParts, text, split_append, reverse_append, dropWhile_append]
  simp only [List.isEmpty_iff]
  rfl

theorem name_of_closingParts_nil (empty : closingParts reading.tail = []) : reading.name = "" := by
  rw [closingParts, dropWhile_eq_nil_iff] at empty
  have slashes := slashes_of_split fun part member => by
    simpa using empty part (mem_reverse.mpr member)
  have none : reading.repository = "" := by
    rw [← toList_inj, toList_empty, eq_nil_iff_forall_not_mem]
    intro char member
    have slash := slashes char (by simp [tail, member])
    exact reading.repositoryWhole (slash ▸ member)
  rw [name, none]
  decide

/-- A part that nothing is left of holds only characters of the ending. -/
theorem not_mem_of_replace_eq_empty {char : Char} (outside : char ∉ nameEnding.toList)
    (nothing : Text.replace part nameEnding "" = "") : char ∉ part.toList := by
  intro member
  have count := countP_replace (· == char) (fun other inside => by
    rw [beq_eq_false_iff_ne]
    rintro rfl
    exact outside inside) part
  rw [nothing, toList_empty, countP_nil, eq_comm, countP_eq_zero] at count
  exact count char member (by simp)

/-- An address without a repository is never labelled with what is cloned. -/
theorem labelOf_front_ne (empty : closingParts reading.tail = []) :
    labelOf (closingParts (reading.front ++ reading.owner)) ≠ some reading.label := by
  rcases reading.split_front with ⟨before, word, parts, held, _, known⟩
  rw [closingParts, parts, reverse_concat, label, reading.name_of_closingParts_nil empty]
  intro same
  by_cases blank : word ++ reading.owner = ""
  · have skipped : ((word ++ reading.owner) :: before.reverse).dropWhile (· == "") =
        before.reverse.dropWhile (· == "") := by simp [blank]
    have kept := head?_dropWhile_not (· == "") before.reverse
    rw [skipped] at same
    rcases closing : before.reverse.dropWhile (· == "") with _ | ⟨last, _ | ⟨owner, rest⟩⟩
    · simp [closing, labelOf] at same
    · simp [closing, labelOf] at same
    · have nothing : Text.replace last nameEnding "" = "" := by
        simp only [closing, labelOf, Option.some.injEq, Label.mk.injEq] at same
        exact same.2
      have member : last ∈ before := by
        have inside : last ∈ before.reverse.dropWhile (· == "") := closing ▸ mem_cons_self
        exact mem_reverse.mp ((dropWhile_sublist _).subset inside)
      rcases held last member with isEmpty | holds
      · simp [closing, isEmpty] at kept
      · exact not_mem_of_replace_eq_empty (by decide) nothing holds
  · have stops : ((word ++ reading.owner) :: before.reverse).dropWhile (· == "") =
        (word ++ reading.owner) :: before.reverse := by simp [blank]
    rw [stops] at same
    rcases remaining : before.reverse with _ | ⟨owner, rest⟩
    · simp [remaining, labelOf] at same
    · simp only [remaining, labelOf, Option.some.injEq, Label.mk.injEq] at same
      have member : owner ∈ before := mem_reverse.mp (remaining ▸ mem_cons_self)
      rcases known with none | rfl | rfl
      · simp [none] at member
      · rw [String.empty_append] at blank same
        rcases held owner member with isEmpty | holds
        · exact blank (same.1 ▸ isEmpty)
        · exact not_mem_of_replace_eq_empty (by decide) same.2 (same.1 ▸ holds)
      · exact not_mem_of_replace_eq_empty (by decide : 'w' ∉ nameEnding.toList) same.2 (by simp)

/-- The label that an address gives from its end is the target that it gives from the front exactly
if the address is plain, or if it repeats that label behind the owner. -/
theorem lastParts?_text_iff : lastParts? reading.text = some reading.label ↔
    reading.IsPlain ∨ lastParts? reading.tail = some reading.label := by
  have single : reading.IsPlain → closingParts reading.tail = [reading.repository] :=
    fun plain => plain.closingParts_tail
  rw [lastParts?_eq, lastParts?_eq, closingParts_text]
  rcases closing : closingParts reading.tail with _ | ⟨part, _ | ⟨next, rest⟩⟩
  · rw [if_pos rfl, iff_false_intro (reading.labelOf_front_ne closing), false_iff]
    rintro (plain | repeated)
    · simp [single plain] at closing
    · cases repeated
  · rcases reading.split_front with ⟨before, word, parts, _, opened, _⟩
    have alone : word ++ reading.owner = reading.owner ↔ word = "" := by
      rw [← toList_inj, toList_append, append_left_eq_self, toList_eq_nil_iff]
    rw [if_neg (cons_ne_nil _ _), parts, reverse_concat]
    simp only [singleton_append, labelOf, label, Option.some.injEq, Label.mk.injEq, alone,
      opened, reduceCtorEq, or_false]
    constructor
    · rintro ⟨isOpen, same⟩
      rcases reading.closingParts_tail_singleton closing with
        ⟨filled, ⟨rfl, none⟩ | ⟨rfl, slashes, closed⟩⟩
      · have closed := reading.trail_eq_empty same
        rw [closed, append_empty] at filled same
        exact ⟨isOpen, filled, reading.replace_repository_iff.mp same, by simp [none], closed⟩
      · exact ⟨isOpen, filled, reading.replace_repository_iff.mp same, slashes, closed⟩
    · intro plain
      have only : part = reading.repository := by simpa [closing] using single plain
      rw [only]
      exact ⟨plain.opened, reading.replace_repository_iff.mpr plain.bare⟩
  · rw [if_neg (cons_ne_nil _ _)]
    have notPlain : ¬ reading.IsPlain := by
      intro plain
      simp [single plain] at closing
    simp [labelOf, notPlain]

end Reading

/-! ## What is cloned -/

theorem exists_of_split {text owner name : String} {rest : List String}
    (parts : split text "/" = owner :: name :: rest) :
    ∃ more, text = owner ++ "/" ++ name ++ more ∧ (more = "" ∨ ∃ rest, more = "/" ++ rest) ∧
      '/' ∉ owner.toList ∧ '/' ∉ name.toList := by
  have ownerWhole := (mem_split (parts ▸ mem_cons_self)).1
  have nameWhole := (mem_split (parts ▸ mem_cons_of_mem _ mem_cons_self)).1
  have joined := join_split text
  rw [parts, Text.join_cons_cons] at joined
  cases rest with
  | nil =>
    rw [Text.join_singleton] at joined
    exact ⟨"", by rw [append_empty, joined], .inl rfl, ownerWhole, nameWhole⟩
  | cons next rest =>
    rw [Text.join_cons_cons] at joined
    refine ⟨"/" ++ Text.join "/" (next :: rest), ?_, .inr ⟨_, rfl⟩, ownerWhole, nameWhole⟩
    rw [← joined]
    simp only [String.append_assoc]

theorem cutScheme_cases (address : String) : ∃ written place, address = written ++ place ∧
    written ∈ ["", "https://", "http://"] ∧ cutScheme address =
      (if written = "http://" then "http://" else "https://", place) := by
  rw [cutScheme]
  cases secure : Text.dropStart? address "https://" with
  | some place =>
    exact ⟨"https://", place, Text.dropStart?_eq_some_iff.mp secure, by decide, by simp⟩
  | none =>
    cases plain : Text.dropStart? address "http://" with
    | some place =>
      exact ⟨"http://", place, Text.dropStart?_eq_some_iff.mp plain, by decide, by simp⟩
    | none => exact ⟨"", address, by simp, by decide, by simp⟩

theorem dropStart_cases (place : String) : ∃ www rest, place = www ++ rest ∧
    (www = "" ∨ www = "www.") ∧ (Text.dropStart? place "www.").getD place = rest := by
  cases found : Text.dropStart? place "www." with
  | some rest => exact ⟨"www.", rest, Text.dropStart?_eq_some_iff.mp found, .inr rfl, rfl⟩
  | none => exact ⟨"", place, by simp, .inl rfl, rfl⟩

theorem exists_append_of_startsWith {text start : String}
    (starts : Text.startsWith text start = true) : ∃ rest, text = start ++ rest := by
  rcases (Text.startsWith_iff text start).mp starts with ⟨rest, whole⟩
  exact ⟨.ofList rest, by rw [← toList_inj, toList_append, toList_ofList, whole]⟩

/-- Whatever is cloned, the address can be read as an address of it. -/
theorem exists_reading {target : CloneTarget} (found : cloneTarget? address = some target) :
    ∃ reading : Reading, reading.text = address ∧ reading.target = target := by
  rcases Text.exists_strip address with ⟨lead, trail, whole, leadBlank, trailBlank⟩
  rcases cutScheme_cases (Text.strip address) with ⟨written, place, core, known, cut⟩
  rcases dropStart_cases place with ⟨www, rest, withWww, isWww, dropped⟩
  -- With or without the service, the first two parts that are left name the target.
  have build : ∀ (service text owner name : String) (others : List String),
      www ++ service ∈ ["", "www.", "github.com/", "www.github.com/"] → rest = service ++ text →
      split text "/" = owner :: name :: others →
      target = ⟨if written = "http://" then "http://" else "https://", owner,
        (Text.dropEnding? name nameEnding).getD name⟩ →
      ∃ reading : Reading, reading.text = address ∧ reading.target = target := by
    intro service text owner name others served behind parts same
    rcases exists_of_split parts with ⟨more, tail, apart, ownerWhole, nameWhole⟩
    refine ⟨⟨lead, written, www ++ service, owner, name, more, trail, leadBlank, known, served,
      ownerWhole, nameWhole, apart, trailBlank⟩, ?_, same.symm⟩
    rw [whole, core, withWww, behind, tail]
    simp only [Reading.text, Reading.front, Reading.tail, String.append_assoc]
  simp only [cloneTarget?, cut, dropped] at found
  split at found
  · rename_i served
    rcases exists_append_of_startsWith served with ⟨text, behind⟩
    have parts : split rest "/" = "github.com" :: split text "/" := by
      rw [behind, show "github.com/" = "github.com" ++ "/" from rfl, split_append,
        split_of_free (by decide)]
      rfl
    rw [parts] at found
    split at found
    · rename_i owner name others same
      rw [List.cons.injEq] at same
      refine build "github.com/" text owner name others ?_ behind same.2 (Option.some.inj found).symm
      rcases isWww with rfl | rfl <;> decide
    · cases found
  · split at found
    · cases found
    · split at found
      · rename_i owner name others same
        refine build "" rest owner name others ?_ (by simp) same (Option.some.inj found).symm
        rcases isWww with rfl | rfl <;> decide
      · cases found

/-- A target as it is read from addresses. -/
structure CloneTarget.Proper (target : CloneTarget) : Prop where
  scheme : target.scheme = "https://" ∨ target.scheme = "http://"
  owner : '/' ∉ target.owner.toList
  name : '/' ∉ target.name.toList

theorem Reading.target_proper (reading : Reading) : reading.target.Proper where
  scheme := by
    rw [Reading.target]
    split
    · exact .inr rfl
    · exact .inl rfl
  owner := reading.ownerWhole
  name := by
    have whole := reading.repositoryWhole
    rw [Reading.target, Reading.name]
    cases ending : Text.dropEnding? reading.repository nameEnding with
    | none => exact whole
    | some start =>
      rw [Text.dropEnding?_eq_some_iff] at ending
      rw [ending, toList_append, mem_append, not_or] at whole
      exact whole.1

namespace CloneTarget

theorem split_address {target : CloneTarget} (proper : target.Proper) :
    ∃ word, target.scheme = word ++ "//" ∧ split target.address "/" =
      [word, "", "github.com", target.owner, target.name] := by
  have known : ∃ word, target.scheme = word ++ "//" ∧ '/' ∉ word.toList := by
    rcases proper.scheme with secure | plain
    · exact ⟨"https:", secure, by decide⟩
    · exact ⟨"http:", plain, by decide⟩
  rcases known with ⟨word, scheme, whole⟩
  have regroup : target.address = word ++ "/" ++ ("" ++ "/" ++ ("github.com" ++ "/" ++
      (target.owner ++ "/" ++ target.name))) := by
    rw [ CloneTarget.address, scheme, ← toList_inj]
    simp
  refine ⟨word, scheme, ?_⟩
  rw [regroup, split_append, split_append, split_append, split_append, split_of_free whole,
    split_of_free (by decide), split_of_free (by decide), split_of_free proper.owner,
    split_of_free proper.name]
  rfl

theorem address_injective {target other : CloneTarget} (proper : target.Proper)
    (otherProper : other.Proper) (same : target.address = other.address) : target = other := by
  rcases split_address proper with ⟨word, scheme, parts⟩
  rcases split_address otherProper with ⟨otherWord, otherScheme, otherParts⟩
  rw [same, otherParts] at parts
  simp only [List.cons.injEq, true_and, and_true] at parts
  cases target
  cases other
  simp_all

theorem strip_address {target : CloneTarget} (proper : target.Proper) :
    ∃ rest, Text.strip target.address =
      target.scheme ++ ("github.com" ++ "/" ++ (target.owner ++ "/" ++ rest)) := by
  have first : ∃ chars, target.address.toList = 'h' :: chars := by
    rcases proper.scheme with secure | plain
    · exact ⟨_, by simp [CloneTarget.address, secure]; rfl⟩
    · exact ⟨_, by simp [CloneTarget.address, plain]; rfl⟩
  rcases first with ⟨chars, starts⟩
  have leading : target.address.toList.dropWhile Text.isBlank = target.address.toList := by
    rw [starts, dropWhile_cons_of_neg (by decide)]
  have whole : target.address.toList =
      (target.scheme ++ "github.com/" ++ target.owner).toList ++ ['/'] ++ target.name.toList := by
    simp [CloneTarget.address]
  refine ⟨.ofList (Text.Chars.trimRight Text.isBlank target.name.toList), ?_⟩
  rw [← toList_inj, Text.strip, toList_ofList, Text.Chars.trim, leading, whole,
    Text.Chars.trimRight_of_last (by decide)]
  simp

theorem cutScheme_append {scheme : String} (known : scheme = "https://" ∨ scheme = "http://")
    (rest : String) : cutScheme (scheme ++ rest) = (scheme, rest) := by
  rw [cutScheme]
  rcases known with rfl | rfl
  · rw [Text.dropStart?_eq_some_iff.mpr rfl]
  · have different : Text.dropStart? ("http://" ++ rest) "https://" = none := by
      rw [Option.eq_none_iff_forall_ne_some]
      intro other found
      rw [Text.dropStart?_eq_some_iff, ← toList_inj] at found
      simp at found
    rw [different, Text.dropStart?_eq_some_iff.mpr rfl]

theorem exists_cloneTarget {target : CloneTarget} (proper : target.Proper) :
    ∃ found, cloneTarget? target.address = some found := by
  rcases strip_address proper with ⟨rest, stripped⟩
  have noWww : Text.dropStart? ("github.com" ++ "/" ++ (target.owner ++ "/" ++ rest)) "www." =
      none := by
    rw [Option.eq_none_iff_forall_ne_some]
    intro other found
    rw [Text.dropStart?_eq_some_iff, ← toList_inj] at found
    simp at found
  have served : Text.startsWith ("github.com" ++ "/" ++ (target.owner ++ "/" ++ rest))
      "github.com/" = true := by
    rw [Text.startsWith_iff]
    exact ⟨(target.owner ++ "/" ++ rest).toList, by simp⟩
  have ⟨name, others, last⟩ := exists_cons_of_ne_nil (Text.split_ne_nil rest)
  have parts : split ("github.com" ++ "/" ++ (target.owner ++ "/" ++ rest)) "/" =
      "github.com" :: target.owner :: name :: others := by
    rw [split_append, split_append, split_of_free (by decide), split_of_free proper.owner, last]
    rfl
  simp only [cloneTarget?, stripped, cutScheme_append proper.scheme, noWww, Option.getD_none, served,
    if_true, parts]
  exact ⟨_, rfl⟩

end CloneTarget

theorem cloneAddress_eq_iff {target : CloneTarget} (proper : target.Proper) :
    cloneAddress address = target.address ↔ cloneTarget? address = some target := by
  unfold cloneAddress
  cases found : cloneTarget? address with
  | some other =>
    rcases exists_reading found with ⟨reading, _, same⟩
    have otherProper := reading.target_proper
    rw [same] at otherProper
    rw [Option.some.injEq]
    constructor
    · exact CloneTarget.address_injective otherProper proper
    · rintro rfl
      rfl
  | none =>
    simp only [reduceCtorEq, iff_false]
    intro same
    rcases CloneTarget.exists_cloneTarget proper with ⟨other, some⟩
    rw [← same, found] at some
    exact Option.some_ne_none other some.symm

/-! ## Labels -/

/-- A description of an address gives a label. -/
def Describes (description : Json) (address : String) (label : Label) : Prop :=
  ∃ fullName, description = .object [("owner", .text label.owner), ("name", .text label.name),
    ("full_name", .text fullName), ("url", .text address)]

/-- A report on the repository of an address carries a label. -/
def Labelled (report : Json) (address : String) (label : Label) : Prop :=
  ∃ folder rest, report = .object (("repository", .object [("url", .text address),
    ("name", .text label.name), ("clone_path", .text folder),
    ("analysis_id", .text (label.owner ++ "-" ++ label.name))]) :: rest)

theorem describes_iff (address : String) (label : Label) :
    Describes (describe address) address label ↔
      (lastParts? address).getD ⟨"unknown", "unknown"⟩ = label := by
  rw [Describes, describe]
  cases label
  cases lastParts? address with
  | none => simp [eq_comm]
  | some found =>
    cases found
    simp

theorem Reading.exists_lastParts (reading : Reading) (named : reading.name ≠ "") :
    ∃ label, lastParts? reading.text = some label := by
  rw [lastParts?_eq, closingParts_text]
  have filled : closingParts reading.tail ≠ [] :=
    fun empty => named (reading.name_of_closingParts_nil empty)
  have ⟨part, others, closing⟩ := exists_cons_of_ne_nil filled
  rcases reading.split_front with ⟨before, word, parts, _⟩
  rw [if_neg filled, closing, parts, reverse_concat]
  cases others with
  | nil => exact ⟨_, rfl⟩
  | cons next others => exact ⟨_, rfl⟩

theorem Reading.describes_text_iff (reading : Reading) :
    Describes (describe reading.text) reading.text reading.label ↔
      reading.IsPlain ∨ lastParts? reading.tail = some reading.label := by
  rw [describes_iff, ← reading.lastParts?_text_iff]
  cases found : lastParts? reading.text with
  | some label => simp
  | none =>
    have unnamed : reading.name = "" := by
      by_contra named
      rcases reading.exists_lastParts named with ⟨label, some⟩
      rw [found] at some
      cases some
    simp [Reading.label, unnamed]

theorem exists_work_of_withClone {machine : Machine} {work : String → Work Json}
    {before after : Workspace}
    (run : (withClone machine address work).start before = (.ok report, after)) :
    ∃ folder workspace later, (work folder).start workspace = (.ok report, later) := by
  rw [withClone] at run
  rcases Work.start_bind_eq_ok_iff.mp run with ⟨folder, taken, _, run⟩
  rw [Work.start_tryCatch] at run
  split at run
  · rename_i value later ended
    rcases Work.start_bind_eq_ok_iff.mp ended with ⟨found, between, worked, ended⟩
    rcases Work.start_bind_eq_ok_iff.mp ended with ⟨_, _, _, ended⟩
    cases run
    cases ended
    exact ⟨folder, taken, between, worked⟩
  · rename_i problem later _
    rcases Work.start_bind_eq_ok_iff.mp run with ⟨disk, _, _, run⟩
    split at run
    · rcases Work.start_bind_eq_ok_iff.mp run with ⟨_, _, _, run⟩
      cases run
    · cases run

theorem labelled_fullReport {parsers : Parsers} {disk : Disk} {base : String}
    {found : Repository.Structure} {label : Label}
    (made : Repository.fullReport parsers disk base found address label.owner label.name =
      .ok report) :
    Labelled report address label := by
  rcases bind_eq_ok_iff.mp made with ⟨calls, _, made⟩
  cases made
  exact ⟨base, _, rfl⟩

theorem labelled_of_analyzeFully {parsers : Parsers} {machine : Machine} {included excluded : Json}
    {before after : Workspace}
    (run : (analyzeFully parsers machine address included excluded).start before =
      (.ok report, after)) :
    Labelled report address ((lastParts? address).getD ⟨"unknown", "unknown"⟩) := by
  rcases exists_work_of_withClone run with ⟨folder, workspace, later, worked⟩
  rw [cloneReport] at worked
  rcases Work.start_bind_eq_ok_iff.mp worked with ⟨found, _, _, worked⟩
  rcases Work.start_bind_eq_ok_iff.mp worked with ⟨disk, _, _, worked⟩
  have made := (Work.start_ofExcept_eq_ok_iff.mp worked).1
  cases read : lastParts? address with
  | none =>
    rw [read] at made
    exact labelled_fullReport made
  | some label =>
    rw [read] at made
    exact labelled_fullReport made

/-- An address that leads to a repository has a reading from the front, and by each such reading the
label that is read from the end is that repository's exactly if the address is plain, or if what
stands behind the owner ends with the label again. A report carries the label read from the end. -/
theorem describes_target_iff {address : String} {target : CloneTarget} (proper : target.Proper)
    (cloned : cloneAddress address = target.address) :
    (∃ reading : Reading, reading.text = address ∧ reading.target = target) ∧
    (∀ reading : Reading, reading.text = address → reading.target = target →
      (Describes (describe address) address ⟨target.owner, target.name⟩ ↔
        reading.IsPlain ∨ lastParts? reading.tail = some ⟨target.owner, target.name⟩)) ∧
    ∀ parsers machine included excluded before report after label,
      (analyzeFully parsers machine address included excluded).start before = (.ok report, after) →
      Describes (describe address) address label → Labelled report address label := by
  refine ⟨exists_reading ((cloneAddress_eq_iff proper).mp cloned), ?_, ?_⟩
  · rintro reading rfl rfl
    exact reading.describes_text_iff
  · intro parsers machine included excluded before report after label run described
    rw [← (describes_iff address label).mp described]
    exact labelled_of_analyzeFully run

/-- An address with blanks in front, an ending and slashes behind it. -/
def roughReading : Reading where
  lead := " \t"
  scheme := "http://"
  service := "www.github.com/"
  owner := "o"
  repository := "r.git"
  more := "//"
  trail := ""
  leadBlank := all_eq_true.mp (by decide)
  schemeKnown := by decide
  serviceKnown := by decide
  ownerWhole := by decide
  repositoryWhole := by decide
  moreApart := .inr ⟨"/", rfl⟩
  trailBlank := nofun

theorem rough_address_described :
    cloneAddress " \thttp://www.github.com/o/r.git//" = "http://github.com/o/r" ∧
    Describes (describe " \thttp://www.github.com/o/r.git//") " \thttp://www.github.com/o/r.git//"
      ⟨"o", "r"⟩ := by
  have cloned : cloneAddress " \thttp://www.github.com/o/r.git//" =
      CloneTarget.address ⟨"http://", "o", "r"⟩ := by
    decide +kernel
  have plain : roughReading.IsPlain :=
    ⟨Or.inr ⟨" \thttp://www.github.com", by decide⟩, by decide, by decide, by simp [roughReading], rfl⟩
  have agree := (describes_target_iff ⟨by decide, by decide, by decide⟩ cloned).2.1
  exact ⟨cloned, (agree roughReading (by decide) (by decide +kernel)).mpr (Or.inl plain)⟩

/-- The address of a branch leads to the repository and is labelled with the branch. -/
theorem branch_address_mislabelled :
    cloneAddress "https://github.com/o/r/tree/main" = "https://github.com/o/r" ∧
    Describes (describe "https://github.com/o/r/tree/main") "https://github.com/o/r/tree/main"
      ⟨"tree", "main"⟩ ∧
    ¬ Describes (describe "https://github.com/o/r/tree/main") "https://github.com/o/r/tree/main"
      ⟨"o", "r"⟩ := by
  rw [describes_iff, describes_iff]
  decide +kernel

end CodeAtlas.Hosting
