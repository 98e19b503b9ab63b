import Mathlib.Data.List.Perm.Basic
import Formulary.Catalog.Standard
import Formulary.Conversion.Memo
import Formulary.Proofs.Conversion.Search

namespace Formulary

/-! A memory of conversions that is shared. Calls go on side by side, access after access, and parts
    of the memory may be forgotten at any time. Whatever is stored is what the catalog gives, so no
    call can tell what the others have done. -/

/-- Every entry that is found is what a function gives for its key. -/
def Tabulates [BEq κ] (function : κ → β) (entries : List (κ × β)) : Prop :=
  ∀ key value, entries.lookup key = some value → value = function key

namespace Tabulates

variable [BEq κ] {function : κ → β} {entries : List (κ × β)}

theorem nil (function : κ → β) : Tabulates function [] := by
  intro key value found
  cases found

variable [LawfulBEq κ]

theorem cons (tabulates : Tabulates function entries) (key : κ) :
    Tabulates function ((key, function key) :: entries) := by
  intro other value found
  rw [List.lookup_cons] at found
  split at found
  · rename_i same
    rw [← Option.some.inj found, beq_iff_eq.mp same]
  · exact tabulates other value found

/-- Entries of one key are kept or dropped together, so that no later one comes to light. -/
theorem lookup_of_filter {kept : κ → Bool} {key : κ} {value : β}
    (found : (entries.filter fun entry => kept entry.1).lookup key = some value) :
    entries.lookup key = some value := by
  induction entries with
  | nil => exact found
  | cons entry rest ih =>
    obtain ⟨first, stored⟩ := entry
    rw [List.filter_cons] at found
    rw [List.lookup_cons]
    split at found
    · rw [List.lookup_cons] at found
      split at found
      · exact found
      · exact ih found
    · rename_i dropped
      have other : (key == first) = false := by
        refine beq_false_of_ne fun same => ?_
        obtain ⟨before, after, split, -⟩ := List.lookup_eq_some_iff.mp found
        have member : (key, value) ∈ rest.filter fun entry => kept entry.1 := by simp [split]
        exact dropped (same ▸ (List.mem_filter.mp member).2)
      rw [other]
      exact ih found

theorem filter (tabulates : Tabulates function entries) (kept : κ → Bool) :
    Tabulates function (entries.filter fun entry => kept entry.1) :=
  fun key value found => tabulates key value (lookup_of_filter found)

end Tabulates

namespace Memo

/-- Every entry is what the catalog gives for its key. -/
structure Sound (catalog : Catalog) (memo : Memo) : Prop where
  results : Tabulates (fun types => catalog.path? types.1 types.2) memo.entries
  listings : Tabulates catalog.conversionsOn memo.listings

/-- What the access stores is what the catalog gives. -/
def Access.Truthful (catalog : Catalog) : Access → Prop
  | storeResult source target path => path = catalog.path? source target
  | storeListing type conversions => conversions = catalog.conversionsOn type
  | _ => True

/-- The answer is one that a sound memory can give. -/
def Access.Allows (catalog : Catalog) : (access : Access) → access.Answer → Prop
  | result source target => fun answer : Option (Option Path) =>
    ∀ path, answer = some path → path = catalog.path? source target
  | storeResult source target _ => fun answer : Option Path => answer = catalog.path? source target
  | listing type => fun answer : Option (List Conversion) =>
    ∀ conversions, answer = some conversions → conversions = catalog.conversionsOn type
  | storeListing type _ => fun answer : List Conversion => answer = catalog.conversionsOn type

/-- Forget some results and some listings. -/
def forget (memo : Memo) (result : Ty × Ty → Bool) (listing : Ty → Bool) : Memo where
  entries := memo.entries.filter fun entry => !result entry.1
  listings := memo.listings.filter fun entry => !listing entry.1

variable {catalog : Catalog} {memo : Memo}

theorem Sound.empty (catalog : Catalog) : Sound catalog .empty := ⟨.nil _, .nil _⟩

theorem Sound.forget (sound : memo.Sound catalog) (result : Ty × Ty → Bool) (listing : Ty → Bool) :
    (memo.forget result listing).Sound catalog where
  results := sound.results.filter fun types => !result types
  listings := sound.listings.filter fun type => !listing type

/-- A sound memory answers soundly and stays sound. -/
theorem Sound.perform (sound : memo.Sound catalog) {access : Access}
    (truthful : access.Truthful catalog) :
    access.Allows catalog (memo.perform access).1 ∧ (memo.perform access).2.Sound catalog := by
  cases access with
  | result source target => exact ⟨sound.results (source, target), sound⟩
  | listing type => exact ⟨sound.listings type, sound⟩
  | storeResult source target path =>
    cases truthful
    change (memo.insert source target _).1 = _ ∧ (memo.insert source target _).2.Sound catalog
    unfold Memo.insert
    split
    · rename_i found
      exact ⟨sound.results (source, target) _ found, sound⟩
    · exact ⟨rfl, sound.results.cons (source, target), sound.listings⟩
  | storeListing type conversions =>
    cases truthful
    change (memo.insertListing type _).1 = _ ∧ (memo.insertListing type _).2.Sound catalog
    unfold Memo.insertListing
    split
    · rename_i found
      exact ⟨sound.listings type _ found, sound⟩
    · exact ⟨rfl, sound.results, sound.listings.cons type⟩

end Memo

namespace Session

/-- The computation ends with a result, whatever a sound memory answers on the way, and stores
    nothing but what the catalog gives. -/
inductive Gives (catalog : Catalog) {α : Type} (result : α) : Session α → Prop
  | done : Gives catalog result (.done result)
  | ask {access : Memo.Access} {resume : access.Answer → Session α}
      (truthful : access.Truthful catalog)
      (resumes : ∀ answer, access.Allows catalog answer → Gives catalog result (resume answer)) :
      Gives catalog result (.ask access resume)

variable {catalog : Catalog}

theorem Gives.bind {session : Session α} {next : α → Session β} {first : α} {result : β}
    (gives : Gives catalog first session) (continues : Gives catalog result (next first)) :
    Gives catalog result (session >>= next) := by
  induction gives with
  | done => exact continues
  | ask truthful _ ih => exact .ask truthful ih

theorem Gives.map {session : Session α} {first : α} (gives : Gives catalog first session)
    (change : α → β) : Gives catalog (change first) (session >>= fun value => pure (change value)) :=
  gives.bind .done

theorem Gives.eq_of_done {answer result : α} (gives : Gives catalog result (.done answer)) :
    answer = result := by
  cases gives
  rfl

theorem Gives.run {session : Session α} {result : α} (gives : Gives catalog result session)
    {memo : Memo} (sound : memo.Sound catalog) :
    (session.run memo).1 = result ∧ (session.run memo).2.Sound catalog := by
  induction gives generalizing memo with
  | done => exact ⟨rfl, sound⟩
  | ask truthful _ ih =>
    obtain ⟨allowed, kept⟩ := sound.perform truthful
    exact ih _ allowed kept

theorem conversionsOn_gives (type : Ty) :
    Gives catalog (catalog.conversionsOn type) (conversionsOn catalog type) := by
  refine .ask trivial fun answer allowed => ?_
  cases answer with
  | some stored =>
    cases allowed stored rfl
    exact .done
  | none =>
    refine .ask rfl fun stored kept => ?_
    cases kept
    exact .done

theorem cheapest_gives {path : Conversion → Session (Option Path)}
    {found : Conversion → Option Path} {conversions : List Conversion}
    (each : ∀ conversion, Gives catalog (found conversion) (path conversion)) (best : Option Path) :
    Gives catalog ((conversions.map found).foldl Path.cheaper best)
      (cheapest path best conversions) := by
  induction conversions generalizing best with
  | nil => exact .done
  | cons conversion rest ih => exact (each conversion).bind (ih _)

/-- Conversions that are looked for at one of their ends are all in the listing of that type. -/
theorem filter_conversionsOn {type : Ty} {wanted : Conversion → Bool}
    (touching : ∀ conversion, wanted conversion → conversion.source = type ∨ conversion.target = type) :
    (catalog.conversionsOn type).filter wanted = catalog.conversions.filter wanted := by
  rw [Catalog.conversionsOn, List.filter_filter]
  refine List.filter_congr fun conversion _ => ?_
  rw [Bool.and_eq_left_iff_imp]
  intro chosen
  simpa using touching conversion chosen

theorem searchWithin_gives (depth : Nat) (inProgress : List (Ty × Ty)) (source target : Ty) :
    Gives catalog (catalog.searchWithin depth inProgress source target)
      (searchWithin catalog depth inProgress source target) := by
  induction depth generalizing inProgress source target with
  | zero => exact .done
  | succ depth ih =>
    have leaving : (catalog.conversionsOn source).filter (·.source == source) =
        catalog.conversions.filter (·.source == source) :=
      filter_conversionsOn fun _ same => .inl (beq_iff_eq.mp same)
    have entering : (catalog.conversionsOn target).filter (·.target == target) =
        catalog.conversions.filter (·.target == target) :=
      filter_conversionsOn fun _ same => .inr (beq_iff_eq.mp same)
    rw [Catalog.searchWithin_succ, searchWithin]
    split
    · exact .done
    split
    · exact .done
    split
    · exact .done
    rw [Catalog.extension, ← leaving, ← entering]
    refine (conversionsOn_gives source).bind ?_
    refine Gives.bind (cheapest_gives (fun conversion => (ih _ _ _).map _) none) ?_
    refine (conversionsOn_gives target).bind ?_
    exact Gives.bind (cheapest_gives (fun conversion => (ih _ _ _).map _) none) .done

theorem find_gives (source target : Ty) :
    Gives catalog (catalog.path? source target) (find catalog source target) := by
  refine .ask trivial fun answer allowed => ?_
  cases answer with
  | some stored =>
    cases allowed stored rfl
    exact .done
  | none =>
    refine (searchWithin_gives _ _ _ _).bind (.ask rfl fun stored kept => ?_)
    cases kept
    exact .done

theorem converts_gives (source target : Ty) :
    Gives catalog (catalog.converts source target) (converts catalog source target) :=
  (find_gives source target).map _

theorem allConvert_gives (candidate : Ty) (types : List Ty) :
    Gives catalog (types.all fun type => catalog.converts type candidate)
      (allConvert catalog candidate types) := by
  induction types with
  | nil => exact .done
  | cons type rest ih =>
    refine (converts_gives type candidate).bind ?_
    rw [List.all_cons]
    cases catalog.converts type candidate with
    | true => exact ih
    | false => exact .done

theorem firstReached_gives (types candidates : List Ty) :
    Gives catalog
      (candidates.find? fun candidate => types.all fun type => catalog.converts type candidate)
      (firstReached catalog types candidates) := by
  induction candidates with
  | nil => exact .done
  | cons candidate rest ih =>
    refine (allConvert_gives candidate types).bind ?_
    rw [List.find?_cons]
    cases types.all fun type => catalog.converts type candidate with
    | true => exact .done
    | false => exact ih

theorem widest_gives (types : List Ty) :
    Gives catalog (catalog.widest? types) (widest catalog types) := firstReached_gives types _

end Session

/-- What can be asked about the conversions of a catalog. -/
inductive Request where
  | find (source target : Ty)
  | require (source target : Ty)
  | converts (source target : Ty)
  | widest (types : List Ty)

namespace Request

def Answer : Request → Type
  | find _ _ => Option Path
  | require _ _ => Except CompileError Path
  | converts _ _ => Bool
  | widest _ => Option Ty

def session (catalog : Catalog) : (request : Request) → Session request.Answer
  | find source target => Session.find catalog source target
  | require source target => Session.require catalog source target
  | converts source target => Session.converts catalog source target
  | widest types => Session.widest catalog types

/-- The answer of a call that has a memory of its own, with nothing in it. -/
def alone (catalog : Catalog) (request : Request) : request.Answer :=
  ((request.session catalog).run .empty).1

theorem session_gives (catalog : Catalog) (request : Request) :
    Session.Gives catalog (request.alone catalog) (request.session catalog) := by
  have given : ∃ answer, Session.Gives catalog answer (request.session catalog) := by
    cases request with
    | find source target => exact ⟨_, Session.find_gives source target⟩
    | converts source target => exact ⟨_, Session.converts_gives source target⟩
    | widest types => exact ⟨_, Session.widest_gives types⟩
    | require source target =>
      cases found : catalog.path? source target with
      | some path => exact ⟨.ok path, (found ▸ Session.find_gives source target).bind .done⟩
      | none =>
        exact ⟨.error (.noConversion source target),
          (found ▸ Session.find_gives source target).bind .done⟩
  obtain ⟨answer, gives⟩ := given
  rwa [alone, (gives.run (.empty catalog)).1]

end Request

/-- A call in progress. -/
structure Call where
  request : Request
  session : Session request.Answer

/-- A request with the answer that it had. -/
abbrev Reply := (request : Request) × request.Answer

/-- A memory, the calls in progress on it and the replies to those that are over. Calls of one
    resolver or of many do not differ, since a resolver has nothing of its own but the catalog. -/
structure Shared where
  memo : Memo := .empty
  calls : List Call := []
  replies : List Reply := []

inductive Action where
  | start (request : Request)
  /-- The call at a place does its next access, or returns. -/
  | advance (place : Nat)
  /-- Clearing the memory forgets all of it, one part after the other. -/
  | forget (result : Ty × Ty → Bool) (listing : Ty → Bool)

/-- The request that an action starts. -/
def Action.request? : Action → Option Request
  | start request => some request
  | advance _ => none
  | forget _ _ => none

namespace Shared

def act (catalog : Catalog) (shared : Shared) : Action → Shared
  | .start request =>
    { shared with calls := shared.calls ++ [⟨request, request.session catalog⟩] }
  | .advance place =>
    match shared.calls[place]? with
    | some ⟨request, .done answer⟩ =>
      { shared with
        calls := shared.calls.eraseIdx place
        replies := shared.replies ++ [⟨request, answer⟩] }
    | some ⟨request, .ask access resume⟩ =>
      { shared with
        memo := (shared.memo.perform access).2
        calls := shared.calls.set place ⟨request, resume (shared.memo.perform access).1⟩ }
    | none => shared
  | .forget result listing => { shared with memo := shared.memo.forget result listing }

/-- The actions of a schedule, one after the other. -/
def run (catalog : Catalog) (shared : Shared) (schedule : List Action) : Shared :=
  schedule.foldl (act catalog) shared

/-- All entries of the memory, all calls in progress and all replies are as they would be alone. -/
structure Sound (catalog : Catalog) (shared : Shared) : Prop where
  memo : shared.memo.Sound catalog
  calls : ∀ call ∈ shared.calls,
    Session.Gives catalog (call.request.alone catalog) call.session
  replies : ∀ reply ∈ shared.replies, reply.2 = reply.1.alone catalog

variable {catalog : Catalog} {shared : Shared}

theorem Sound.act (sound : shared.Sound catalog) (action : Action) :
    (shared.act catalog action).Sound catalog := by
  cases action with
  | start request =>
    refine ⟨sound.memo, fun call member => ?_, sound.replies⟩
    rcases List.mem_append.mp member with old | new
    · exact sound.calls call old
    · cases List.mem_singleton.mp new
      exact request.session_gives catalog
  | forget result listing => exact ⟨sound.memo.forget result listing, sound.calls, sound.replies⟩
  | advance place =>
    unfold Shared.act
    dsimp only
    split
    · rename_i request answer found
      refine ⟨sound.memo, fun call member => ?_, fun reply member => ?_⟩
      · exact sound.calls call (List.mem_of_mem_eraseIdx member)
      · rcases List.mem_append.mp member with old | new
        · exact sound.replies reply old
        · cases List.mem_singleton.mp new
          exact (sound.calls _ (List.mem_of_getElem? found)).eq_of_done
    · rename_i request access resume found
      cases sound.calls _ (List.mem_of_getElem? found) with
      | ask truthful resumes =>
        obtain ⟨allowed, kept⟩ := sound.memo.perform truthful
        refine ⟨kept, fun call member => ?_, sound.replies⟩
        rcases List.mem_or_eq_of_mem_set member with old | rfl
        · exact sound.calls call old
        · exact resumes _ allowed
    · exact sound

theorem Sound.run (sound : shared.Sound catalog) (schedule : List Action) :
    (shared.run catalog schedule).Sound catalog := by
  induction schedule generalizing shared with
  | nil => exact sound
  | cons action rest ih => exact ih (sound.act action)

/-- Requests that have been answered and requests in progress. -/
def requests (shared : Shared) : List Request :=
  shared.replies.map (·.1) ++ shared.calls.map (·.request)

/-- No request is lost and none is answered twice. -/
theorem requests_act (catalog : Catalog) (shared : Shared) (action : Action) :
    (shared.act catalog action).requests.Perm (shared.requests ++ action.request?.toList) := by
  cases action with
  | start request => simp [act, requests, Action.request?]
  | forget result listing => simp [act, requests, Action.request?]
  | advance place =>
    rw [act, Action.request?, Option.toList_none, List.append_nil]
    split
    · rename_i request answer found
      obtain ⟨inside, same⟩ := List.getElem?_eq_some_iff.mp found
      have removed := (List.getElem_cons_eraseIdx_perm inside).map (·.request)
      rw [same, List.map_cons] at removed
      simpa [requests] using removed.append_left (shared.replies.map (·.1))
    · rename_i request access resume found
      obtain ⟨inside, same⟩ := List.getElem?_eq_some_iff.mp found
      have kept : (shared.calls.map (·.request)).set place request = shared.calls.map (·.request) := by
        have whole := List.set_getElem_self
          (by simpa using inside : place < (shared.calls.map (·.request)).length)
        rwa [List.getElem_map, same] at whole
      simp [requests, List.map_set, kept]
    · exact .refl _

theorem requests_run (catalog : Catalog) (shared : Shared) (schedule : List Action) :
    (shared.run catalog schedule).requests.Perm
      (shared.requests ++ schedule.filterMap Action.request?) := by
  induction schedule generalizing shared with
  | nil => simp [run]
  | cons action rest ih =>
    refine (ih (shared.act catalog action)).trans ?_
    rw [List.filterMap_cons]
    have first := (requests_act catalog shared action).append_right
      (rest.filterMap Action.request?)
    cases started : action.request? <;> simpa [started] using first

/-- The first call comes to its end when it alone goes on. -/
theorem first_returns (catalog : Catalog) (memo : Memo) (call : Call) (others : List Call)
    (replies : List Reply) :
    ∃ steps memo' replies', run catalog ⟨memo, call :: others, replies⟩
      (.replicate steps (.advance 0)) = ⟨memo', others, replies'⟩ := by
  obtain ⟨request, session⟩ := call
  induction session generalizing memo with
  | done answer => exact ⟨1, _, _, rfl⟩
  | ask access resume ih =>
    obtain ⟨steps, memo', replies', returned⟩ :=
      ih (memo.perform access).1 (memo.perform access).2
    exact ⟨steps + 1, memo', replies', returned⟩

theorem all_return (catalog : Catalog) (shared : Shared) :
    ∃ steps, (run catalog shared (.replicate steps (.advance 0))).calls = [] := by
  obtain ⟨memo, calls, replies⟩ := shared
  induction calls generalizing memo replies with
  | nil => exact ⟨0, rfl⟩
  | cons call others ih =>
    obtain ⟨steps, memo', replies', returned⟩ := first_returns catalog memo call others replies
    obtain ⟨further, finished⟩ := ih memo' replies'
    refine ⟨steps + further, ?_⟩
    rw [run] at returned
    rwa [← List.replicate_append_replicate, run, List.foldl_append, returned]

/-- The memory is transparent. In whatever order calls are started, go on and return, and whatever is
    forgotten in the meantime, each reply is the one that the request would have with an empty memory
    of its own; so is the answer of a whole call at any time. Every request that was started has been
    answered once or is in progress, and all that are in progress come to an end. -/
theorem run_transparent (catalog : Catalog) (schedule : List Action) :
    (∀ reply ∈ (run catalog {} schedule).replies, reply.2 = reply.1.alone catalog) ∧
    (∀ request : Request, ((request.session catalog).run (run catalog {} schedule).memo).1 =
      request.alone catalog) ∧
    (run catalog {} schedule).requests.Perm (schedule.filterMap Action.request?) ∧
    ∃ steps, (run catalog {} (schedule ++ List.replicate steps (.advance 0))).calls = [] := by
  have empty : Sound catalog {} := ⟨.empty catalog, by simp, by simp⟩
  have sound := empty.run schedule
  refine ⟨sound.replies, fun request => ?_, ?_, ?_⟩
  · exact ((request.session_gives catalog).run sound.memo).1
  · simpa [requests] using requests_run catalog {} schedule
  · obtain ⟨steps, returned⟩ := all_return catalog (run catalog {} schedule)
    refine ⟨steps, ?_⟩
    rwa [run, List.foldl_append]

end Shared

/-- Two calls about one pair of types take turns. The memory is cleared when both have found a path
    and neither has stored it; then the second call returns before the first. -/
def twoSearches : List Action :=
  [.start (.find .float32 .decimal), .start (.converts .float32 .decimal)] ++
    (List.replicate 5 [.advance 0, .advance 1]).flatten ++
    [.forget (fun _ => true) (fun _ => true)] ++ .replicate 2 (.advance 1) ++
    .replicate 2 (.advance 0)

/-- Both calls have the answers that they have alone. -/
theorem twoSearches_transparent :
    (Shared.run .standard {} twoSearches).replies =
      [⟨.converts .float32 .decimal, true⟩,
        ⟨.find .float32 .decimal,
          some [.cast .float32 .float64, .declared Catalog.float64ToDecimal]⟩] ∧
    (Request.converts .float32 .decimal).alone .standard = true ∧
    (Request.find .float32 .decimal).alone .standard =
      some [.cast .float32 .float64, .declared Catalog.float64ToDecimal] := by
  have replies : (Shared.run .standard {} twoSearches).replies =
      [⟨.converts .float32 .decimal, true⟩,
        ⟨.find .float32 .decimal,
          some [.cast .float32 .float64, .declared Catalog.float64ToDecimal]⟩] := rfl
  obtain ⟨same, -⟩ := Shared.run_transparent .standard twoSearches
  rw [replies] at same
  exact ⟨replies, (same _ List.mem_cons_self).symm,
    (same _ (List.mem_cons_of_mem _ List.mem_cons_self)).symm⟩

end Formulary
