import CodeAtlas.Proofs.OrderedMap
import CodeAtlas.Proofs.Workspace
import CodeAtlas.Server.Cache
import Mathlib.Data.List.Induction

/-!
What a look-up in the cache finds after any history of operations. Entries that are too old are
removed by look-ups and by cleaning, each with a test of its own; the first main statement says that
this cannot be observed: the answer depends only on the last event that entered or removed the
address, and on the time since then. The second one compares the two tests: they differ for an entry
that has just reached its limit.
-/

namespace CodeAtlas.Server.Cache

open List

variable {history : List Event} {address : String} {event : Event} {now : Time.Moment} {span : Int}
  {cache after : Cache}

/-! ## Histories -/

namespace Operation

def address? : Operation → Option String
  | .add address _ | .lookUp address | .remove address => some address
  | .dropExpired => none

def changes (address : String) : Operation → Bool
  | .add other _ | .remove other => other == address
  | .lookUp _ | .dropExpired => false

end Operation

def performAll (cache : Cache) (history : List Event) : Cache := history.foldl perform cache

/-- The last event that entered or removed an address. -/
def lastChange (history : List Event) (address : String) : Option Event :=
  history.reverse.find? (·.operation.changes address)

theorem lastChange_concat (history : List Event) (event : Event) (address : String) :
    lastChange (history ++ [event]) address =
      if event.operation.changes address then some event else lastChange history address := by
  simp only [lastChange, reverse_append, reverse_singleton, singleton_append, find?_cons]
  split <;> simp_all

theorem lastChange_filter (history : List Event) (address : String) :
    lastChange (history.filter (·.operation.changes address)) address =
      lastChange history address := by
  simp [lastChange, ← filter_reverse, find?_filter]

theorem mem_of_lastChange (last : lastChange history address = some event) : event ∈ history :=
  mem_reverse.mp (mem_of_find?_eq_some last)

theorem address_of_lastChange {other docs : String} {made : Time.Moment}
    (last : lastChange history address = some ⟨made, .add other docs⟩) :
    other = address := by
  simpa [Operation.changes] using find?_some last

/-! ## Single operations -/

theorem get?_add (cache : Cache) (now : Time.Moment) (address docs key : String) :
    (cache.add now address docs).index.get? key =
      if key = cache.key address then
        some ⟨.text address, .text (cache.key address), .text docs, now, now⟩
      else cache.index.get? key :=
  cache.index.get?_insert _ _ _

theorem get?_remove (cache : Cache) (address key : String) :
    (cache.remove address).index.get? key =
      if key = cache.key address then none else cache.index.get? key := by
  rw [remove]
  split
  · exact cache.index.get?_erase _ _
  · rename_i absent
    split
    · rename_i same
      rw [same, OrderedMap.get?_eq_none_iff, ← OrderedMap.contains_iff]
      exact absent
    · rfl

/-- All that a look-up can do. -/
inductive LookedUp (cache : Cache) (now : Time.Moment) (address : String) :
    Except Fault (Cache × Json) → Prop
  | missing (absent : cache.index.get? (cache.key address) = none) :
      LookedUp cache now address (.ok (cache, .null))
  | used {entry : CacheEntry} {age span : Int}
      (found : cache.index.get? (cache.key address) = some entry)
      (aged : now.since? entry.created = some age) (limit : Time.spanOfDays cache.days = .ok span)
      (young : age < span) :
      LookedUp cache now address
        (.ok (cache.put (cache.key address) { entry with accessed := now }, entry.docs))
  | expired {entry : CacheEntry} {age span : Int}
      (found : cache.index.get? (cache.key address) = some entry)
      (aged : now.since? entry.created = some age) (limit : Time.spanOfDays cache.days = .ok span)
      (old : span ≤ age) :
      LookedUp cache now address (.ok (cache.remove address, .null))
  | unlimited {entry : CacheEntry} {age : Int} {cause : Fault}
      (found : cache.index.get? (cache.key address) = some entry)
      (aged : now.since? entry.created = some age)
      (limit : Time.spanOfDays cache.days = .error cause) :
      LookedUp cache now address (.error cause)
  | incomparable {entry : CacheEntry}
      (found : cache.index.get? (cache.key address) = some entry)
      (ageless : now.since? entry.created = none) :
      LookedUp cache now address (.error .wrongKind)

theorem lookedUp (cache : Cache) (now : Time.Moment) (address : String) :
    LookedUp cache now address (cache.lookUp now address) := by
  rw [lookUp]
  split
  · exact .missing ‹_›
  · rename_i entry found
    split
    · exact .incomparable found ‹_›
    · rename_i age aged
      cases limit : Time.spanOfDays cache.days with
      | error cause => exact .unlimited found aged limit
      | ok span =>
        simp only [bind, Except.bind]
        split
        · exact .used found aged limit ‹_›
        · exact .expired found aged limit (Int.not_lt.mp ‹_›)

/-! ## Cleaning -/

theorem isBefore_earlier {limit : Time.Moment} (isEarlier : now.earlier span = .ok limit)
    (moment : Time.Moment) :
    moment.isBefore limit =
      match now.since? moment with
      | some age => .ok (decide (span < age))
      | none => .error .wrongKind := by
  rw [Time.Moment.earlier] at isEarlier
  split at isEarlier
  · cases isEarlier
    rw [Time.Moment.isBefore, Time.Moment.since?, Time.Moment.since?]
    cases moment.ahead <;> cases now.ahead
    · simp only [Except.ok.injEq, decide_eq_decide]
      omega
    · rfl
    · rfl
    · simp only [Except.ok.injEq, decide_eq_decide]
      omega
  · cases isEarlier

def isOlder (span : Int) (now : Time.Moment) (entry : CacheEntry) : Bool :=
  (now.since? entry.created).any (span < ·)

theorem isOlder_iff (span : Int) (now : Time.Moment) (entry : CacheEntry) :
    isOlder span now entry = true ↔ ∃ age, now.since? entry.created = some age ∧ span < age := by
  simp [isOlder, Option.any_eq_true]

theorem filterMapM_isBefore {limit : Time.Moment} (isEarlier : now.earlier span = .ok limit)
    (entries : List (String × CacheEntry)) :
    (entries.filterMapM fun (key, entry) => do
      return if ← entry.created.isBefore limit then some key else none) =
      if entries.all fun item => (now.since? item.2.created).isSome then
        .ok ((entries.filter fun item => isOlder span now item.2).map Prod.fst)
      else .error .wrongKind := by
  induction entries with
  | nil => rfl
  | cons item rest induction =>
    rcases item with ⟨key, entry⟩
    rw [filterMapM_cons, induction, all_cons]
    simp only [isBefore_earlier isEarlier]
    cases aged : now.since? entry.created with
    | none => rfl
    | some age =>
      cases rest.all fun item => (now.since? item.2.created).isSome <;>
        by_cases old : span < age <;>
          simp [old, isOlder, aged, bind, Except.bind, pure, Except.pure]

/-- Nothing keeps the cache from being cleaned: the limit can be reckoned, and it can be compared with
the time of each entry. -/
structure Cleanable (cache : Cache) (now : Time.Moment) (span : Int) : Prop where
  reckoned : Time.spanOfDays cache.days = .ok span
  inTime : ∃ limit, now.earlier span = .ok limit
  comparable : ∀ item ∈ cache.index.entries, (now.since? item.2.created).isSome

theorem exists_dropExpired (cleanable : cache.Cleanable now span) :
    ∃ after, cache.dropExpired now = .ok after := by
  rcases cleanable with ⟨reckoned, ⟨limit, isEarlier⟩, comparable⟩
  have selected := filterMapM_isBefore isEarlier cache.index.entries
  rw [if_pos (all_eq_true.mpr comparable)] at selected
  refine exists_bind_eq_ok reckoned (exists_bind_eq_ok isEarlier (exists_bind_eq_ok selected ?_))
  split
  · exact ⟨_, rfl⟩
  · exact ⟨_, rfl⟩

theorem dropExpired_eq_ok (run : cache.dropExpired now = .ok after) :
    ∃ span, cache.Cleanable now span ∧ ∀ key,
      after.index.get? key = (cache.index.get? key).filter fun entry => !isOlder span now entry := by
  rcases bind_eq_ok_iff.mp run with ⟨span, reckoned, rest⟩
  rcases bind_eq_ok_iff.mp rest with ⟨limit, isEarlier, rest⟩
  rw [filterMapM_isBefore isEarlier] at rest
  split at rest
  · rename_i comparable
    refine ⟨span, ⟨reckoned, ⟨limit, isEarlier⟩, all_eq_true.mp comparable⟩, fun key => ?_⟩
    -- No key stands twice, so a key is chosen exactly if its own entry is.
    have chosen : ∀ entry, cache.index.get? key = some entry →
        (key ∈ (cache.index.entries.filter fun item => isOlder span now item.2).map Prod.fst ↔
          isOlder span now entry = true) := by
      intro entry found
      simp only [mem_map, mem_filter, Prod.exists, exists_and_right, exists_eq_right,
        ← OrderedMap.get?_eq_some_iff, found, Option.some.injEq, exists_eq_left']
    have filtered : after.index.get? key = (cache.index.get? key).filter fun _ =>
        !((cache.index.entries.filter fun item => isOlder span now item.2).map Prod.fst).contains key := by
      simp only [bind, Except.bind] at rest
      split at rest
      · rename_i none
        cases rest
        rw [isEmpty_iff.mp none]
        cases cache.index.get? key with
        | none => rfl
        | some entry => rfl
      · cases rest
        exact OrderedMap.get?_filter _ _ _
    rw [filtered]
    cases found : cache.index.get? key with
    | none => rfl
    | some entry => simp [Option.filter, chosen entry found]
  · cases rest

/-! ## What events do to entries -/

/-- What becomes of an entry by events that neither enter nor remove its address: at most it is
marked as used, or it is dropped because it is too old. -/
inductive Aged (days : Int) (now : Time.Moment) (old new : Option CacheEntry) : Prop
  | kept (same : new = old)
  | used {entry : CacheEntry} (before : old = some entry)
      (after : new = some { entry with accessed := now })
  | dropped {entry : CacheEntry} {age span : Int} (before : old = some entry) (after : new = none)
      (aged : now.since? entry.created = some age) (limit : Time.spanOfDays days = .ok span)
      (expired : span ≤ age)

theorem aged_lookUp {docs : Json} (run : cache.lookUp now address = .ok (after, docs))
    (key : String) :
    Aged cache.days now (cache.index.get? key) (after.index.get? key) := by
  have looked := cache.lookedUp now address
  rw [run] at looked
  by_cases same : key = cache.key address
  · subst same
    cases looked with
    | missing absent => exact .kept rfl
    | used found aged limit young => exact .used found (cache.index.get?_insert_self _ _)
    | expired found aged limit old =>
      exact .dropped found (by simp [get?_remove]) aged limit old
  · cases looked with
    | missing absent => exact .kept rfl
    | used found aged limit young => exact .kept (cache.index.get?_insert_of_ne same _)
    | expired found aged limit old => exact .kept (by simp [get?_remove, same])

theorem aged_dropExpired (run : cache.dropExpired now = .ok after) (key : String) :
    Aged cache.days now (cache.index.get? key) (after.index.get? key) := by
  rcases dropExpired_eq_ok run with ⟨span, cleanable, views⟩
  rw [views]
  cases cache.index.get? key with
  | none => exact .kept rfl
  | some entry =>
    cases old : isOlder span now entry with
    | false => exact .kept (by simp [old])
    | true =>
      rcases (isOlder_iff span now entry).mp old with ⟨age, aged, older⟩
      exact .dropped rfl (by simp [old]) aged cleanable.reckoned (Int.le_of_lt older)

theorem aged_perform (unchanged : event.operation.changes address = false)
    (distinct : ∀ other, event.operation.address? = some other → cache.key other = cache.key address →
      other = address) :
    Aged cache.days event.now (cache.index.get? (cache.key address))
      ((cache.perform event).index.get? (cache.key address)) := by
  have apart : ∀ other, event.operation.address? = some other → other ≠ address →
      cache.key address ≠ cache.key other :=
    fun other named different same => different (distinct other named same.symm)
  rcases event with ⟨now, operation⟩
  cases operation with
  | add other docs =>
    have different : other ≠ address := by simpa [Operation.changes] using unchanged
    exact .kept (by simp [perform, get?_add, apart other rfl different])
  | remove other =>
    have different : other ≠ address := by simpa [Operation.changes] using unchanged
    exact .kept (by simp [perform, get?_remove, apart other rfl different])
  | lookUp other =>
    rw [perform]
    split
    · exact aged_lookUp ‹_› _
    · exact .kept rfl
  | dropExpired =>
    rw [perform]
    split
    · exact aged_dropExpired ‹_› _
    · exact .kept rfl

/-- An event changes at most the index, and then it notes that the index has to be saved. -/
theorem perform_cases (cache : Cache) (event : Event) :
    cache.perform event = cache ∨
      ∃ index, cache.perform event = { cache with index, unsaved := true } := by
  have removed (address : String) : cache.remove address = cache ∨
      ∃ index, cache.remove address = { cache with index, unsaved := true } := by
    rw [remove]
    split
    · exact .inr ⟨_, rfl⟩
    · exact .inl rfl
  rcases event with ⟨now, operation⟩
  cases operation with
  | add address docs => exact .inr ⟨_, rfl⟩
  | remove address => exact removed address
  | lookUp address =>
    have looked := cache.lookedUp now address
    rw [perform]
    split
    · rename_i after docs run
      rw [run] at looked
      cases looked with
      | missing absent => exact .inl rfl
      | used found aged limit young => exact .inr ⟨_, rfl⟩
      | expired found aged limit old => exact removed address
    · exact .inl rfl
  | dropExpired =>
    rw [perform]
    split
    · rename_i after run
      rcases bind_eq_ok_iff.mp run with ⟨span, _, rest⟩
      rcases bind_eq_ok_iff.mp rest with ⟨limit, _, rest⟩
      rcases bind_eq_ok_iff.mp rest with ⟨expired, _, rest⟩
      split at rest
      · cases rest
        exact .inl rfl
      · cases rest
        exact .inr ⟨_, rfl⟩
    · exact .inl rfl

theorem settings_perform (cache : Cache) (event : Event) :
    (cache.perform event).days = cache.days ∧ (cache.perform event).key = cache.key := by
  rcases cache.perform_cases event with same | ⟨index, changed⟩
  · rw [same]
    exact ⟨rfl, rfl⟩
  · rw [changed]
    exact ⟨rfl, rfl⟩

/-! ## Entries and histories -/

/-- The entry for an address agrees with a history up to some time: it comes from the last change,
and where it is missing after it was entered, it is too old. -/
structure Tracks (address : String) (history : List Event) (now : Time.Moment) (cache : Cache) :
    Prop where
  found : ∀ entry, cache.index.get? (cache.key address) = some entry →
    ∃ docs, entry.docs = .text docs ∧
      lastChange history address = some ⟨entry.created, .add address docs⟩
  gone : cache.index.get? (cache.key address) = none →
    ∀ made docs, lastChange history address = some ⟨made, .add address docs⟩ →
      ∃ span, Time.spanOfDays cache.days = .ok span ∧ span ≤ now.ticks - made.ticks

theorem since?_of_naive {moment made : Time.Moment} {age : Int} (naive : moment.ahead = none)
    (aged : moment.since? made = some age) : age = moment.ticks - made.ticks := by
  rw [Time.Moment.since?, naive] at aged
  split at aged
  · injection aged with same
    exact same.symm
  · cases ‹none = some _›
  · cases aged

theorem tracks_change (cache : Cache) (changes : event.operation.changes address = true) :
    Tracks address (history ++ [event]) event.now (cache.perform event) := by
  have last : lastChange (history ++ [event]) address = some event := by
    simp [lastChange_concat, changes]
  have key := (cache.settings_perform event).2
  rcases event with ⟨now, operation⟩
  cases operation with
  | add other docs =>
    obtain rfl : other = address := by simpa [Operation.changes] using changes
    have entered : ((cache.perform ⟨now, .add other docs⟩).index.get? (cache.key other)) =
        some ⟨.text other, .text (cache.key other), .text docs, now, now⟩ := by
      simp [perform, get?_add]
    constructor
    · rw [key, entered]
      rintro entry ⟨⟩
      exact ⟨docs, rfl, last⟩
    · rw [key, entered]
      intro missing
      cases missing
  | remove other =>
    obtain rfl : other = address := by simpa [Operation.changes] using changes
    have removed : ((cache.perform ⟨now, .remove other⟩).index.get? (cache.key other)) = none := by
      simp [perform, get?_remove]
    constructor
    · rw [key, removed]
      intro entry found
      cases found
    · intro _ made docs entered
      rw [last] at entered
      cases entered
  | lookUp other => cases changes
  | dropExpired => cases changes

theorem Tracks.step (tracks : Tracks address history now cache) (naive : event.now.ahead = none)
    (later : now.ticks ≤ event.now.ticks)
    (distinct : ∀ other, event.operation.address? = some other → cache.key other = cache.key address →
      other = address) :
    Tracks address (history ++ [event]) event.now (cache.perform event) := by
  cases changes : event.operation.changes address with
  | true => exact tracks_change cache changes
  | false =>
    have last : lastChange (history ++ [event]) address = lastChange history address := by
      simp [lastChange_concat, changes]
    have aged := aged_perform changes distinct
    rcases cache.settings_perform event with ⟨days, key⟩
    constructor
    · rw [key, last]
      intro entry found
      cases aged with
      | kept same => exact tracks.found entry (same.symm.trans found)
      | used before after =>
        have source := tracks.found _ before
        cases after.symm.trans found
        exact source
      | dropped before after age limit expired => cases after.symm.trans found
    · rw [key, last, days]
      intro missing made docs entered
      cases aged with
      | kept same =>
        rcases tracks.gone (same.symm.trans missing) made docs entered with ⟨span, limit, old⟩
        exact ⟨span, limit, by omega⟩
      | used before after => cases after.symm.trans missing
      | @dropped entry age span before after aged limit expired =>
        rcases tracks.found entry before with ⟨_, _, source⟩
        cases entered.symm.trans source
        have since := since?_of_naive naive aged
        exact ⟨span, limit, by omega⟩

theorem Tracks.mono {late : Time.Moment} (tracks : Tracks address history now cache)
    (later : now.ticks ≤ late.ticks) :
    Tracks address history late cache := by
  refine ⟨tracks.found, fun missing made docs entered => ?_⟩
  rcases tracks.gone missing made docs entered with ⟨span, limit, old⟩
  exact ⟨span, limit, by omega⟩

/-- A history of a clock that shows local time and never goes back. -/
structure Timed (history : List Event) : Prop where
  naive : ∀ event ∈ history, event.now.ahead = none
  ordered : history.Pairwise fun event later => event.now.ticks ≤ later.now.ticks

/-- Whoever has the key of an address is the address, as far as a history goes. -/
def Distinct (key : String → String) (address : String) (history : List Event) : Prop :=
  ∀ event ∈ history, ∀ other, event.operation.address? = some other → key other = key address →
    other = address

theorem settings_performAll (cache : Cache) (history : List Event) :
    (cache.performAll history).days = cache.days ∧ (cache.performAll history).key = cache.key := by
  induction history generalizing cache with
  | nil => exact ⟨rfl, rfl⟩
  | cons event rest induction =>
    rcases cache.settings_perform event with ⟨days, key⟩
    rcases induction (cache.perform event) with ⟨laterDays, laterKey⟩
    exact ⟨laterDays.trans days, laterKey.trans key⟩

theorem Timed.before (timed : Timed (history ++ [event])) :
    Timed history ∧ event.now.ahead = none ∧ ∀ old ∈ history, old.now.ticks ≤ event.now.ticks := by
  rcases pairwise_append.mp timed.ordered with ⟨ordered, _, past⟩
  refine ⟨⟨fun old member => timed.naive old (mem_append_left _ member), ordered⟩, ?_, ?_⟩
  · exact timed.naive event (mem_append_right _ (mem_singleton.mpr rfl))
  · exact fun old member => past old member event (mem_singleton.mpr rfl)

/-- Entries agree with the whole history. The induction goes from one event to the next one, and
each event tells the time up to which the entries agree. -/
theorem tracks_performAll (empty : cache.index = .empty) (timed : Timed history)
    (distinct : Distinct cache.key address history)
    (past : ∀ event ∈ history, event.now.ticks ≤ now.ticks) :
    Tracks address history now (cache.performAll history) := by
  induction history using List.reverseRecOn generalizing now with
  | nil =>
    constructor
    · intro entry found
      rw [performAll, foldl_nil, empty] at found
      cases found
    · intro _ made docs entered
      cases entered
  | append_singleton history event induction =>
    rcases timed.before with ⟨earlier, naive, ordered⟩
    have tracks := induction earlier
      (fun old member => distinct old (mem_append_left _ member)) ordered
    have last := mem_append_right history (mem_singleton.mpr (Eq.refl event))
    have step := tracks.step naive (Int.le_refl _) (by
      rw [(cache.settings_performAll history).2]
      exact distinct event last)
    rw [performAll, foldl_append]
    exact step.mono (past event last)

/-- What a look-up has to answer: the documentation that was entered last, unless it was removed
later or is too old. There is no answer where so many days cannot be reckoned with. -/
def promised (days : Int) (history : List Event) (now : Time.Moment) (address : String) :
    Except Fault Json :=
  match lastChange history address with
  | some ⟨made, .add _ docs⟩ => do
    let span ← Time.spanOfDays days
    return if now.ticks - made.ticks < span then .text docs else .null
  | _ => .ok .null

theorem lookUp_performAll (empty : cache.index = .empty)
    (timed : Timed (history ++ [⟨now, .lookUp address⟩]))
    (distinct : Distinct cache.key address history) :
    ((cache.performAll history).lookUp now address).map Prod.snd =
      promised cache.days history now address := by
  rcases timed.before with ⟨earlier, naive, past⟩
  have tracks := tracks_performAll empty earlier distinct past
  have days := (cache.settings_performAll history).1
  have looked := (cache.performAll history).lookedUp now address
  generalize (cache.performAll history).lookUp now address = result at looked
  rw [promised]
  cases looked with
  | missing absent =>
    split
    · rename_i made other docs last
      cases address_of_lastChange last
      rcases tracks.gone absent made docs last with ⟨span, limit, old⟩
      rw [days] at limit
      simp [limit, bind, Except.bind, pure, Except.pure, Except.map, Int.not_lt.mpr old]
    · rfl
  | used found aged limit young =>
    rcases tracks.found _ found with ⟨docs, text, last⟩
    rw [days] at limit
    rw [since?_of_naive naive aged] at young
    simp [last, limit, text, young, bind, Except.bind, pure, Except.pure, Except.map]
  | expired found aged limit old =>
    rcases tracks.found _ found with ⟨docs, text, last⟩
    rw [days] at limit
    rw [since?_of_naive naive aged] at old
    simp [last, limit, Int.not_lt.mpr old, bind, Except.bind, pure, Except.pure, Except.map]
  | unlimited found aged limit =>
    rcases tracks.found _ found with ⟨docs, text, last⟩
    rw [days] at limit
    simp [last, limit, bind, Except.bind, Except.map]
  | @incomparable entry found ageless =>
    rcases tracks.found entry found with ⟨docs, text, last⟩
    have created : entry.created.ahead = none := earlier.naive _ (mem_of_lastChange last)
    have comparable : now.since? entry.created = some (now.ticks - entry.created.ticks) := by
      rw [Time.Moment.since?, naive, created]
    cases ageless.symm.trans comparable

theorem promised_eq_text_iff {days : Int} {docs : String} :
    promised days history now address = .ok (.text docs) ↔
      days.natAbs < 1000000000 ∧ ∃ made,
        lastChange history address = some ⟨made, .add address docs⟩ ∧
          now.ticks - made.ticks < days * Time.day := by
  rw [promised]
  split
  · rename_i made other written last
    cases address_of_lastChange last
    rw [last, Time.spanOfDays]
    split
    · rename_i inRange
      simp only [bind, Except.bind, pure, Except.pure, inRange, true_and]
      split
      · rename_i young
        constructor
        · rintro ⟨⟩
          exact ⟨made, rfl, young⟩
        · rintro ⟨_, ⟨⟩, _⟩
          rfl
      · rename_i old
        constructor
        · rintro ⟨⟩
        · rintro ⟨_, ⟨⟩, young⟩
          exact absurd young old
    · rename_i outOfRange
      constructor
      · rintro ⟨⟩
      · rintro ⟨inRange, _⟩
        exact absurd inRange outOfRange
  · rename_i noAdd
    constructor
    · rintro ⟨⟩
    · rintro ⟨_, made, last, _⟩
      exact absurd last (noAdd made address docs)

theorem Timed.filter (timed : Timed (history ++ [event])) (keep : Event → Bool) :
    Timed (history.filter keep ++ [event]) := by
  have shorter : (history.filter keep ++ [event]).Sublist (history ++ [event]) :=
    filter_sublist.append_right _
  exact ⟨fun event member => timed.naive event (shorter.subset member),
    timed.ordered.sublist shorter⟩

/-- The answer of a look-up after any history. -/
theorem lookUp_answers_last_change {cache : Cache} (empty : cache.index = .empty) {address : String}
    {history : List Event} {now : Time.Moment} (timed : Timed (history ++ [⟨now, .lookUp address⟩]))
    (distinct : Distinct cache.key address history) :
    (∀ docs, (∃ after, (cache.performAll history).lookUp now address = .ok (after, .text docs)) ↔
      cache.days.natAbs < 1000000000 ∧ ∃ made,
        lastChange history address = some ⟨made, .add address docs⟩ ∧
          now.ticks - made.ticks < cache.days * Time.day) ∧
    ((cache.performAll history).lookUp now address).map Prod.snd =
      promised cache.days history now address ∧
    ((cache.performAll history).lookUp now address).map Prod.snd =
      ((cache.performAll (history.filter (·.operation.changes address))).lookUp now address).map
        Prod.snd := by
  have answer := lookUp_performAll empty timed distinct
  refine ⟨fun docs => ?_, answer, ?_⟩
  · rw [← promised_eq_text_iff, ← answer]
    constructor
    · rintro ⟨after, found⟩
      rw [found]
      rfl
    · intro found
      rcases looked : (cache.performAll history).lookUp now address with cause | ⟨after, docs⟩
      · rw [looked] at found
        cases found
      · rw [looked] at found
        cases found
        exact ⟨after, rfl⟩
  · have onlyChanges := lookUp_performAll empty (timed.filter (·.operation.changes address))
      fun event member => distinct event (List.mem_of_mem_filter member)
    rw [answer, onlyChanges, promised, promised, lastChange_filter]

/-- A repository is entered; then another one is entered, looked up and removed, and the cache is
cleaned. -/
def visits : List Event := [
  ⟨⟨63000000000000000, none⟩, .add "https://github.com/owner/first" "/docs/first"⟩,
  ⟨⟨63000000000000001, none⟩, .add "https://github.com/owner/second" "/docs/second"⟩,
  ⟨⟨63000000000000001, none⟩, .lookUp "https://github.com/owner/second"⟩,
  ⟨⟨63000000000000002, none⟩, .dropExpired⟩,
  ⟨⟨63000000000000003, none⟩, .remove "https://github.com/owner/second"⟩]

theorem distinct_visits : Distinct repositoryKey "https://github.com/owner/first" visits := by
  have apart : repositoryKey "https://github.com/owner/second" ≠
      repositoryKey "https://github.com/owner/first" := by
    decide +kernel
  intro event member other about same
  simp only [visits, mem_cons, not_mem_nil, or_false] at member
  rcases member with rfl | rfl | rfl | rfl | rfl
  · cases about
    rfl
  · cases about
    exact absurd same apart
  · cases about
    exact absurd same apart
  · cases about
  · cases about
    exact absurd same apart

theorem first_found_after_visits :
    Timed (visits ++ [⟨⟨63000000000000004, none⟩, .lookUp "https://github.com/owner/first"⟩]) ∧
    Distinct repositoryKey "https://github.com/owner/first" visits ∧
    ∃ after, (performAll { folder := "/cache" } visits).lookUp ⟨63000000000000004, none⟩
      "https://github.com/owner/first" = .ok (after, .text "/docs/first") := by
  have timed : Timed
      (visits ++ [⟨⟨63000000000000004, none⟩, .lookUp "https://github.com/owner/first"⟩]) :=
    ⟨by decide, by decide⟩
  have answers := @lookUp_answers_last_change { folder := "/cache" } rfl _ _ _ timed distinct_visits
  refine ⟨timed, distinct_visits, (answers.1 "/docs/first").mpr ⟨by decide, ?_⟩⟩
  exact ⟨⟨63000000000000000, none⟩, by decide, by decide⟩

/-- With more days than can be reckoned with there is no answer, even for what was just entered. -/
theorem too_many_days :
    lastChange [⟨⟨63000000000000000, none⟩, .add "https://github.com/o/r" "/docs"⟩]
      "https://github.com/o/r" =
      some ⟨⟨63000000000000000, none⟩, .add "https://github.com/o/r" "/docs"⟩ ∧
    (63000000000000001 : Int) - 63000000000000000 < 1000000000 * Time.day ∧
    (performAll { folder := "/cache", days := 1000000000 }
      [⟨⟨63000000000000000, none⟩, .add "https://github.com/o/r" "/docs"⟩]).lookUp
      ⟨63000000000000001, none⟩ "https://github.com/o/r" = .error .outOfRange := by
  refine ⟨by decide, by decide, ?_⟩
  simp only [performAll, List.foldl_cons, List.foldl_nil, perform, lookUp, add, put,
    OrderedMap.get?_insert_self]
  rfl

/-! ## Cleaning and looking up -/

/-- A look-up refuses the entry of an address: it gives nothing and removes the entry. -/
def Refuses (cache : Cache) (now : Time.Moment) (address : String) : Prop :=
  (cache.index.get? (cache.key address)).isSome ∧ ∃ after,
    cache.lookUp now address = .ok (after, .null) ∧ after.index.get? (cache.key address) = none

/-- Cleaning removes the entry of an address. -/
def Clears (cache : Cache) (now : Time.Moment) (address : String) : Prop :=
  (cache.index.get? (cache.key address)).isSome ∧ ∃ after,
    cache.dropExpired now = .ok after ∧ after.index.get? (cache.key address) = none

/-- The entry of an address has been used for just the time that entries are used. -/
def AtLimit (cache : Cache) (now : Time.Moment) (address : String) : Prop :=
  ∃ entry span, cache.index.get? (cache.key address) = some entry ∧
    Time.spanOfDays cache.days = .ok span ∧ now.since? entry.created = some span

variable {cache : Cache} {now : Time.Moment} {address : String}

theorem refuses_iff {entry : CacheEntry} (found : cache.index.get? (cache.key address) = some entry) :
    cache.Refuses now address ↔ ∃ age span, now.since? entry.created = some age ∧
      Time.spanOfDays cache.days = .ok span ∧ span ≤ age := by
  have looked := cache.lookedUp now address
  rw [Refuses, found, Option.isSome_some, eq_self, true_and]
  generalize cache.lookUp now address = result at looked ⊢
  cases looked with
  | missing absent => cases found.symm.trans absent
  | used same aged reckoned young =>
    cases found.symm.trans same
    simp [aged, reckoned, young, put, OrderedMap.get?_insert_self]
  | expired same aged reckoned old =>
    cases found.symm.trans same
    simp [aged, reckoned, old, get?_remove]
  | unlimited same aged failed =>
    cases found.symm.trans same
    simp [failed]
  | incomparable same ageless =>
    cases found.symm.trans same
    simp [ageless]

theorem clears_iff {entry : CacheEntry} (found : cache.index.get? (cache.key address) = some entry) :
    cache.Clears now address ↔ ∃ age span, now.since? entry.created = some age ∧
      cache.Cleanable now span ∧ span < age := by
  have removed : ∀ span, (some entry).filter (fun entry => !isOlder span now entry) = none ↔
      ∃ age, now.since? entry.created = some age ∧ span < age := by
    intro span
    simp [← isOlder_iff]
  constructor
  · rintro ⟨_, after, run, gone⟩
    rcases dropExpired_eq_ok run with ⟨span, cleanable, views⟩
    rw [views, found, removed] at gone
    rcases gone with ⟨age, aged, old⟩
    exact ⟨age, span, aged, cleanable, old⟩
  · rintro ⟨age, span, aged, cleanable, old⟩
    rcases exists_dropExpired cleanable with ⟨after, run⟩
    rcases dropExpired_eq_ok run with ⟨same, again, views⟩
    cases cleanable.reckoned.symm.trans again.reckoned
    refine ⟨by rw [found, Option.isSome_some], after, run, ?_⟩
    rw [views, found, removed]
    exact ⟨age, aged, old⟩

/-- Cleaning removes an entry exactly if a look-up would refuse it, it is past its limit by now, and
nothing keeps the cache from being cleaned. -/
theorem cleared_iff_refused (cache : Cache) (now : Time.Moment) (address : String) :
    cache.Clears now address ↔ cache.Refuses now address ∧ ¬ cache.AtLimit now address ∧
      ∃ span, cache.Cleanable now span := by
  cases found : cache.index.get? (cache.key address) with
  | none => simp [Clears, Refuses, found]
  | some entry =>
    rw [clears_iff found, refuses_iff found]
    constructor
    · rintro ⟨age, span, aged, cleanable, old⟩
      refine ⟨⟨age, span, aged, cleanable.reckoned, Int.le_of_lt old⟩, ?_, span, cleanable⟩
      rintro ⟨same, limit, again, reckoned, exact_⟩
      cases found.symm.trans again
      cases cleanable.reckoned.symm.trans reckoned
      cases aged.symm.trans exact_
      exact Int.lt_irrefl _ old
    · rintro ⟨⟨age, span, aged, reckoned, old⟩, apart, limit, cleanable⟩
      have same : span = limit := Except.ok.inj (reckoned.symm.trans cleanable.reckoned)
      have past : age ≠ span := fun equal =>
        apart ⟨entry, span, found, reckoned, aged.trans (congrArg some equal)⟩
      exact ⟨age, limit, aged, cleanable, by omega⟩

/-- An entry that was made just a day ago is refused and not removed where entries are used for a day. -/
theorem refused_entry_stays :
    let cache := add { folder := "/cache", days := 1 } ⟨63000000000000000, none⟩
      "https://github.com/o/r" "/docs"
    let now : Time.Moment := ⟨63000086400000000, none⟩
    cache.Refuses now "https://github.com/o/r" ∧ ¬ cache.Clears now "https://github.com/o/r" := by
  intro cache now
  have found := get?_add { folder := "/cache", days := 1 } ⟨63000000000000000, none⟩
    "https://github.com/o/r" "/docs" (repositoryKey "https://github.com/o/r")
  rw [if_pos rfl] at found
  refine ⟨(refuses_iff found).mpr ⟨_, _, rfl, rfl, by decide⟩, fun cleared => ?_⟩
  rcases (clears_iff found).mp cleared with ⟨age, span, aged, cleanable, old⟩
  cases aged
  cases cleanable.reckoned
  exact absurd old (by decide)

end CodeAtlas.Server.Cache
