import HwRadar.Apify.Collector

/-! An honest run's record against the classifier. The record reads back as the report it
was made of, unless a count of the source is out of the contract's range; and the report
contradicts nothing, unless the source declares no page at all. -/
namespace HwRadar.Apify.Collector
open HwRadar.Base
open HwRadar.Apify.Contract

theorem someDigits (n : Nat) : some1 Text.isDigit (Text.natText n) = true := by
  unfold some1
  rw [Bool.and_eq_true]
  refine ⟨?_,List.all_eq_true.mpr (Text.natTextDigits n)⟩
  cases digits : Text.natText n with
  | nil => exact absurd digits (Text.natTextNonempty n)
  | cons => rfl

theorem countNumber (least most n : Nat) :
    count least most (number n) = if least ≤ n ∧ n ≤ most then some n else none := by
  simp [count,number,countText,someDigits,Text.natTextValue]

theorem countWithin {least most n : Nat} (low : least ≤ n) (high : n ≤ most) : count least most
    (number n) = some n := by
  rw [countNumber,if_pos ⟨low,high⟩]

theorem textRead {least most : Nat} {pattern : List Char → Bool} {s : String}
    (read : (text least most pattern (.str s)).isSome) :
    text least most pattern (.str s) = some s := by
  obtain ⟨s',found⟩ := Option.isSome_iff_exists.mp read
  simp only [text] at found ⊢
  split at found
  · rename_i fits
    rw [if_pos fits]
  · cases found

theorem limitsRead (l : LimitsHit) : LimitsHit.read (limitsJson l) = some l := rfl

theorem queryScopeRead {q : QueryScope} (site : (siteKeyText (.str q.siteKey)).isSome)
    (scope : (scopeKeyText (.str q.collectionScope)).isSome) (category : (categoryText (.str q.categoryHint)).isSome)
    (items : 1 ≤ q.maxItems ∧ q.maxItems ≤ 500) (pages : 1 ≤ q.maxPages ∧ q.maxPages ≤ 50)
    (requests : 1 ≤ q.maxRequests ∧ q.maxRequests ≤ 100) (bytes : 1 ≤ q.maxBytes ∧ q.maxBytes ≤ 10000000)
    (time : 10 ≤ q.timeBudgetSecs ∧ q.timeBudgetSecs ≤ 900) : QueryScope.read (queryScopeJson q) = some q := by
  have site := textRead site
  have scope := textRead scope
  have category := textRead category
  unfold siteKeyText scopeKeyText categoryText QueryScope.read at *
  simp [queryScopeJson,closed,required,find,siteKeyText,scopeKeyText,categoryText,site,scope,category,
    countWithin items.1 items.2,countWithin pages.1 pages.2,countWithin requests.1 requests.2,
    countWithin bytes.1 bytes.2,countWithin time.1 time.2]

def Reportable (n : Option Nat) : Prop := ∀ m, n = some m → m ≤ 100000

instance (n : Option Nat) : Decidable (Reportable n) := by
  unfold Reportable
  cases n with
  | none => exact isTrue nofun
  | some m => exact decidable_of_iff (m ≤ 100000) ⟨fun h _ e => Option.some.inj e ▸ h,fun h => h m rfl⟩

theorem declaredRead {fields : List (String × Json)} {name : Name} {n : Option Nat}
    (stated_ : find fields name = n.map number) :
    defaulted reportedCount fields name = if Reportable n then some n else none := by
  unfold defaulted
  rw [stated_]
  cases n with
  | none => rfl
  | some n =>
    change (count 0 100000 (number n)).map some = _
    rw [countNumber]
    have range : Reportable (some n) ↔ n ≤ 100000 :=
      ⟨fun all => all n rfl,fun inside m same => Option.some.inj same ▸ inside⟩
    by_cases inside : n ≤ 100000
    · rw [if_pos ⟨Nat.zero_le n,inside⟩,if_pos (range.mpr inside)]
      rfl
    · rw [if_neg fun both => inside both.2,if_neg fun all => inside (range.mp all)]
      rfl

theorem completenessRead {c : CompletenessReport} (pages : c.pagesFetched ≤ 100000) (items : c.itemsEmitted ≤ 100000) :
    CompletenessReport.read (completenessJson c) =
      if Reportable c.pagesDeclared ∧ Reportable c.itemsDeclared then some c else none := by
  obtain ⟨complete,truncated,limits,pagesDeclared,pagesFetched,itemsDeclared,itemsEmitted⟩ := c
  have fetched : reportedCount (number pagesFetched) = some pagesFetched := countWithin (Nat.zero_le _) pages
  have emitted : reportedCount (number itemsEmitted) = some itemsEmitted := countWithin (Nat.zero_le _) items
  unfold completenessJson
  generalize layout : [("complete",Json.bool complete),("truncated",Json.bool truncated),
    ("limitsHit",limitsJson limits)] ++
    (pagesDeclared.map fun n => ("pagesDeclared",number n)).toList ++ [("pagesFetched",number pagesFetched)] ++
    (itemsDeclared.map fun n => ("itemsDeclared",number n)).toList ++ [("itemsEmitted",number itemsEmitted)] = fields
  have shut : closed [("complete","complete"),("truncated","truncated"),("limitsHit","limits_hit"),
      ("pagesDeclared","pages_declared"),("pagesFetched","pages_fetched"),("itemsDeclared","items_declared"),
      ("itemsEmitted","items_emitted")] (.obj fields) = some fields := by
    subst layout
    cases pagesDeclared <;> cases itemsDeclared <;> rfl
  have at_ : find fields ("complete","complete") = some (.bool complete) ∧
      find fields ("truncated","truncated") = some (.bool truncated) ∧
      find fields ("limitsHit","limits_hit") = some (limitsJson limits) ∧
      find fields ("pagesFetched","pages_fetched") = some (number pagesFetched) ∧
      find fields ("itemsEmitted","items_emitted") = some (number itemsEmitted) ∧
      find fields ("pagesDeclared","pages_declared") = pagesDeclared.map number ∧
      find fields ("itemsDeclared","items_declared") = itemsDeclared.map number := by
    subst layout
    cases pagesDeclared <;> cases itemsDeclared <;> exact ⟨rfl,rfl,rfl,rfl,rfl,rfl,rfl⟩
  obtain ⟨complete_,truncated_,limits_,fetched_,emitted_,pages_,items_⟩ := at_
  simp only [CompletenessReport.read,shut,required,complete_,truncated_,limits_,fetched_,emitted_,declaredRead pages_,
    declaredRead items_,Option.bind_some,Option.bind_eq_bind,flag,limitsRead,fetched,emitted]
  by_cases first : Reportable pagesDeclared
  · by_cases second : Reportable itemsDeclared
    · simp [first,second]
    · simp [first,second]
  · simp [first]

structure Worded (e : RunError) : Prop where
  code : text 1 64 errorCode (.str e.code) = some e.code
  message : e.message.length ≤ 500

theorem errorRead {e : RunError} (worded : Worded e) : RunError.read (errorJson e) = some e := by
  have message : text 0 500 anyText (.str e.message) = some e.message := by
    simp [text,anyText,worded.message]
  unfold RunError.read errorJson
  simp [closed,required,find,worded.code,message]

theorem errorsRead {errors : List RunError} (few : errors.length ≤ 50) (worded : ∀ e ∈ errors, Worded e) :
    readErrors (.arr (errors.map errorJson)) = some errors := by
  have each : (errors.map errorJson).mapM RunError.read = some errors := by
    induction errors with
    | nil => rfl
    | cons e rest ih =>
      have tail := ih (by simp at few; omega) fun e' mem => worded e' (List.mem_cons_of_mem _ mem)
      rw [List.map_cons,List.mapM_cons,errorRead (worded e List.mem_cons_self),tail]
      rfl
  simp [readErrors,few,each]

theorem outputRead {r : CollectionResult} {q : QueryScope} (version : r.schemaVersion = runSchemaVersion)
    (status : r.report.status = "succeeded") (pages : r.report.completeness.pagesFetched ≤ 100000)
    (items : r.report.completeness.itemsEmitted ≤ 100000) (scope : r.report.queryScope = q)
    (scopeRead : QueryScope.read (queryScopeJson q) = some q)
    (provider : r.report.provider = ⟨"hw-radar-synthetic-collector","1.0","synthetic"⟩)
    (few : r.report.errors.length ≤ 50) (worded : ∀ e ∈ r.report.errors, Worded e) :
    RunOutput.read r.output =
      if Reportable r.report.completeness.pagesDeclared ∧ Reportable r.report.completeness.itemsDeclared
        then some r.report else none := by
  obtain ⟨rows,version_,⟨status_,completeness,scope_,provider_,errors⟩,succeeded⟩ := r
  dsimp only at *
  subst version status scope provider
  have errors_ := errorsRead few worded
  have provider_ : ProviderInfo.read (providerJson ⟨"hw-radar-synthetic-collector","1.0","synthetic"⟩) =
      some ⟨"hw-radar-synthetic-collector","1.0","synthetic"⟩ := by decide +kernel
  unfold RunOutput.read CollectionResult.output
  simp only [closed,required,find]
  simp [literal,scopeRead,errors_,provider_,completenessRead pages items]
  split <;> rfl

structure Kept (more : Nat) (run run' : Run) : Prop where
  rows : run'.rows = run.rows
  fetched : run'.pagesFetched = run.pagesFetched
  pages : run'.pagesDeclared = run.pagesDeclared
  items : run'.itemsDeclared = run.itemsDeclared
  worded : (∀ e ∈ run.errors, Worded e) → ∀ e ∈ run'.errors, Worded e
  few : run'.errors.length ≤ run.errors.length + more

theorem Kept.refl (more : Nat) (run : Run) : Kept more run run := ⟨rfl,rfl,rfl,rfl,fun all => all,Nat.le_add_right _ _⟩

theorem Kept.trans {m n : Nat} {a b c : Run} (first : Kept m a b) (second : Kept n b c) : Kept (m + n) a c := by
  refine ⟨second.rows.trans first.rows,second.fetched.trans first.fetched,second.pages.trans first.pages,
    second.items.trans first.items,fun all => second.worded (first.worded all),?_⟩
  have left := first.few
  have right := second.few
  omega

theorem Kept.more {m n : Nat} {a b : Run} (kept : Kept m a b) (le : m ≤ n) : Kept n a b :=
  ⟨kept.rows,kept.fetched,kept.pages,kept.items,kept.worded,kept.few.trans (Nat.add_le_add_left le _)⟩

theorem truncateLength (n : Nat) (s : String) : (Text.truncate n s).length ≤ n := by
  simp [Text.truncate]

theorem wordedError {run : Run} {code message : String} (good : text 1 64 errorCode (.str code) = some code)
    (all : ∀ e ∈ run.errors, Worded e) : ∀ e ∈ (run.error code message).errors, Worded e := by
  intro e mem
  rcases List.mem_append.mp mem with old | new
  · exact all e old
  · rw [List.mem_singleton] at new
    subst new
    exact ⟨good,truncateLength 500 message⟩

theorem keptError (run : Run) {code : String} (message : String) (good : text 1 64 errorCode (.str code) = some code) :
    Kept 1 run (run.error code message) :=
  ⟨rfl,rfl,rfl,rfl,wordedError good,by simp [Run.error]⟩

theorem keptTimedOut (run : Run) : Kept 1 run (timedOut run).1 := ⟨rfl,rfl,rfl,rfl,fun all => all,Nat.le_succ _⟩

theorem keptFetchError (run : Run) (url name : String) : Kept 1 run (fetchError url name run).1 :=
  keptError run _ (by decide +kernel)

theorem keptChunks (maxBytes before : Nat) (chunks : List (Nat × Bool)) (run : Run) :
    Kept 0 run (readChunks maxBytes before chunks run).1 := by
  induction chunks generalizing run with
  | nil => exact .refl 0 run
  | cons chunk rest ih =>
    obtain ⟨downloaded,late⟩ := chunk
    have here : Kept 0 run { run with bytesRead := before + downloaded } := ⟨rfl,rfl,rfl,rfl,fun all => all,le_rfl⟩
    unfold readChunks
    dsimp only
    split
    · exact ⟨rfl,rfl,rfl,rfl,fun all => all,le_rfl⟩
    · exact here.trans (ih _)

theorem keptPage (url : String) (run : Run) (body : Option Body) : Kept 1 run (parsedPage url run body).1 := by
  have refused : ∀ message, Kept 1 run (run.error "invalid_page" message) := fun message =>
    keptError run message (by decide +kernel)
  unfold parsedPage
  split
  · exact refused _
  · split
    · exact .refl 1 run
    · exact refused _
  · exact refused _

theorem keptFetch (url : String) (answer : Answer) (maxBytes : Nat) (run : Run) : Kept 1 run
    (fetchPage url answer maxBytes run).1 := by
  have sent : Kept 0 run { run with requests := run.requests + 1 } := ⟨rfl,rfl,rfl,rfl,fun all => all,le_rfl⟩
  refine Kept.trans (n := 1) sent ?_
  unfold fetchPage
  cases answer with
  | timedOut => exact keptTimedOut _
  | httpError name => exact keptFetchError _ _ _
  | response status chunks ending =>
    dsimp only
    split
    · exact keptError _ _ (by decide +kernel)
    · have body := keptChunks maxBytes run.bytesRead chunks { run with requests := run.requests + 1 }
      split
      · rename_i run' read
        rw [read] at body
        exact body.more (Nat.zero_le 1)
      · rename_i run' read
        rw [read] at body
        refine Kept.trans (n := 1) body ?_
        cases ending with
        | timedOut => exact keptTimedOut _
        | httpError name => exact keptFetchError _ _ _
        | complete body => exact keptPage _ _ _

theorem fetchedSized {url : String} {answer : Answer} {maxBytes : Nat} {run : Run} {page : Page}
    (got : (fetchPage url answer maxBytes run).2 = some page) : (listed page).length < 2 ^ 63 := by
  unfold fetchPage at got
  cases answer with
  | timedOut => cases got
  | httpError name => cases got
  | response status chunks ending =>
    dsimp only at got
    split at got
    · cases got
    · split at got
      · cases got
      · cases ending with
        | timedOut => cases got
        | httpError name => cases got
        | complete body =>
          dsimp only at got
          unfold parsedPage at got
          split at got
          · cases got
          · rename_i fields value
            obtain ⟨body',_,value⟩ := Option.map_eq_some_iff.mp value
            split at got
            · cases got
              exact body'.sized page value
            · cases got
          · cases got

def Attempt.run : Attempt → Run
  | .halted run | .missed run | .fetched run _ => run

def Attempt.page : Attempt → Option Page
  | .fetched _ page => some page
  | _ => none

theorem attempted (input : CollectorInput) (turn : Turn) (path : String) (maxBytes : Nat) (run : Run) :
    Kept 1 run (attempt input turn path maxBytes run).run ∧
      ∀ page, (attempt input turn path maxBytes run).page = some page → (listed page).length < 2 ^ 63 := by
  have checked : Kept 0 run (stopForLimits run turn.late (input.faultMode.pageCap input.scope.maxPages)
      input.scope.maxRequests (input.faultMode.itemCap input.scope.maxItems) maxBytes) :=
    ⟨rfl,rfl,rfl,rfl,fun all => all,le_rfl⟩
  unfold attempt
  dsimp only
  generalize stopForLimits run turn.late (input.faultMode.pageCap input.scope.maxPages) input.scope.maxRequests
    (input.faultMode.itemCap input.scope.maxItems) maxBytes = halted at checked ⊢
  split
  · exact ⟨checked.more (Nat.zero_le 1),nofun⟩
  · have counted : Kept 0 halted { halted with pagesAttempted := halted.pagesAttempted + 1 } :=
      ⟨rfl,rfl,rfl,rfl,fun all => all,le_rfl⟩
    have fetch := keptFetch (pageUrl input.fixtureCommit path) turn.answer maxBytes
      { halted with pagesAttempted := halted.pagesAttempted + 1 }
    have sized := @fetchedSized (pageUrl input.fixtureCommit path) turn.answer maxBytes
      { halted with pagesAttempted := halted.pagesAttempted + 1 }
    generalize fetchPage (pageUrl input.fixtureCommit path) turn.answer maxBytes
      { halted with pagesAttempted := halted.pagesAttempted + 1 } = out at fetch sized ⊢
    obtain ⟨run',_ | page⟩ := out
    · exact ⟨(checked.trans counted).trans fetch,nofun⟩
    · exact ⟨(checked.trans counted).trans fetch,fun page same => sized same⟩

structure Emitted (maxItems listings : Nat) (run run' : Run) : Prop where
  fetched : run'.pagesFetched = run.pagesFetched
  pages : run'.pagesDeclared = run.pagesDeclared
  items : run'.itemsDeclared = run.itemsDeclared
  rows : run.rows.length ≤ maxItems → run'.rows.length ≤ maxItems
  worded : (∀ e ∈ run.errors, Worded e) → ∀ e ∈ run'.errors, Worded e
  few : run'.errors.length ≤ run.errors.length + listings

theorem emitted (rowValid : Json → Bool) (input : CollectorInput) (startedAt url : String) (maxItems : Nat)
    (listings : List Json) (run : Run) :
    Emitted maxItems listings.length run (emitRows rowValid input startedAt url maxItems listings run) := by
  induction listings generalizing run with
  | nil => exact ⟨rfl,rfl,rfl,fun within => within,fun all => all,le_rfl⟩
  | cons listing rest ih =>
    unfold emitRows
    rw [List.length_cons]
    split
    · exact ⟨rfl,rfl,rfl,fun within => within,fun all => all,Nat.le_add_right _ _⟩
    · rename_i room
      split
      · rename_i row _
        obtain ⟨fetched,pages,items,rows,worded,few⟩ := ih { run with rows := run.rows ++ [row] }
        refine ⟨fetched,pages,items,fun _ => rows ?_,worded,few.trans (Nat.add_le_add_left (Nat.le_succ _) _)⟩
        rw [List.length_append,List.length_singleton]
        omega
      · obtain ⟨fetched,pages,items,rows,worded,few⟩ := ih
          (run.error "invalid_source_listing" (url ++ ": listing " ++ countText (run.rows.length + 1) ++ " skipped"))
        refine ⟨fetched,pages,items,rows,fun all => worded (wordedError (by decide +kernel) all),few.trans ?_⟩
        rw [Run.error,List.length_append,List.length_singleton]
        omega

section
variable {rowValid : Json → Bool} {input : CollectorInput} {startedAt : String} {turns : Nat → Turn}

structure Counted (input : CollectorInput) (tried planned : Nat) (run : Run) : Prop where
  fetched : run.pagesFetched ≤ tried
  rows : run.rows.length ≤ input.scope.maxItems
  worded : ∀ e ∈ run.errors, Worded e
  few : run.errors.length ≤ tried * 2 ^ 63
  declared : ∀ n, run.pagesDeclared = some n → 1 ≤ run.pagesFetched ∧ (n = 0 ∨ run.pagesFetched ≤ n) ∧ planned ≤ n
  undeclared : run.pagesFetched = 0 → run.pagesDeclared = none ∧ run.itemsDeclared = none

theorem Counted.kept {tried planned : Nat} {run run' : Run} (counted : Counted input tried planned run)
    (kept : Kept 1 run run') :
    Counted input (tried + 1) planned run' := by
  obtain ⟨rows,fetched,pages,items,worded,few⟩ := kept
  have before := counted.few
  exact ⟨by rw [fetched]; exact counted.fetched.trans (Nat.le_succ _),by rw [rows]; exact counted.rows,
    worded counted.worded,by omega,by rw [pages,fetched]; exact counted.declared,
    by rw [pages,items,fetched]; exact counted.undeclared⟩

theorem Counted.absorbs {index planned : Nat} {run run' : Run} {path : String} {page : Page}
    (honest : input.faultMode = .none)
    (more : index < planned) (counted : Counted input index planned run) (kept : Kept 1 run run')
    (sized : (listed page).length < 2 ^ 63) :
    Counted input (index + 1) (replan page run' planned) (absorb rowValid input startedAt path page run') := by
  have cap : input.faultMode.itemCap input.scope.maxItems = input.scope.maxItems := by rw [honest]; rfl
  have within := counted.kept kept
  have before : run'.pagesFetched ≤ index := kept.fetched ▸ counted.fetched
  have old := counted.few
  have one := kept.few
  unfold absorb
  dsimp only
  rw [cap]
  obtain ⟨fetched,pages,items,rows,worded,few⟩ := emitted rowValid input startedAt (pageUrl input.fixtureCommit path)
    input.scope.maxItems (listed page) { declare_ page run' with pagesFetched := (declare_ page run').pagesFetched + 1 }
  by_cases first : run'.pagesFetched = 0
  · simp only [declare_,if_pos first] at fetched pages items rows worded few ⊢
    refine ⟨by rw [fetched]; omega,rows within.rows,worded within.worded,by omega,fun n declared => ?_,fun none_ => ?_⟩
    · rw [pages] at declared
      rw [fetched,first,replan,if_pos first,declared]
      exact ⟨by omega,by omega,Nat.min_le_right _ _⟩
    · rw [fetched] at none_
      omega
  · simp only [declare_,if_neg first] at fetched pages items rows worded few ⊢
    refine ⟨by rw [fetched]; omega,rows within.rows,worded within.worded,by omega,fun n declared => ?_,fun none_ => ?_⟩
    · rw [pages] at declared
      obtain ⟨_,_,bound⟩ := within.declared n declared
      rw [fetched,replan,if_neg first]
      exact ⟨by omega,by omega,bound⟩
    · rw [fetched] at none_
      omega

theorem unfaulted (honest : input.faultMode = .none) (run : Run) : input.faultMode.afterFirstPage run = run := by
  simp [honest,FaultMode.afterFirstPage]

theorem counts (honest : input.faultMode = .none) {paths : List String} {index planned maxBytes : Nat} {run : Run}
    (counted : Counted input index planned run) :
    ∃ tried ≤ index + paths.length, Counted input tried
    (collectPages rowValid input startedAt turns paths index planned maxBytes run).2
      (collectPages rowValid input startedAt turns paths index planned maxBytes run).1 := by
  induction paths generalizing index planned maxBytes run with
  | nil => exact ⟨index,le_rfl,counted⟩
  | cons path rest ih =>
    have next : index + 1 + rest.length = index + (path::rest).length := by simp; omega
    unfold collectPages
    split
    · exact ⟨index,Nat.le_add_right _ _,counted⟩
    · rename_i more
      have more : index < planned := by
        by_contra past
        exact more (by simp [Nat.not_lt.mp past])
      rw [if_neg (by simp [honest,FaultMode.skipsPage]),← next]
      obtain ⟨kept,sized⟩ := attempted input (turns index) path maxBytes run
      generalize attempt input (turns index) path maxBytes run = out at kept sized ⊢
      cases out with
      | halted run' => exact ⟨index + 1,Nat.le_add_right _ _,counted.kept kept⟩
      | missed run' => exact ih (counted.kept kept)
      | fetched run' page =>
        have absorbed := @Counted.absorbs rowValid input startedAt index planned run run' path page honest more counted
          kept (sized page rfl)
        dsimp only
        rw [unfaulted honest]
        split
        · exact ⟨index + 1,Nat.le_add_right _ _,absorbed⟩
        · exact ih absorbed

theorem absorbDeclared (path : String) (page : Page) (run : Run) :
    (absorb rowValid input startedAt path page run).pagesDeclared = (declare_ page run).pagesDeclared ∧
      (absorb rowValid input startedAt path page run).itemsDeclared = (declare_ page run).itemsDeclared ∧
      1 ≤ (absorb rowValid input startedAt path page run).pagesFetched := by
  have emitted_ := emitted rowValid input startedAt (pageUrl input.fixtureCommit path)
    (input.faultMode.itemCap input.scope.maxItems) (listed page)
    { declare_ page run with pagesFetched := (declare_ page run).pagesFetched + 1 }
  exact ⟨emitted_.pages,emitted_.items,emitted_.fetched ▸ Nat.le_add_left 1 _⟩

theorem declaredStay (honest : input.faultMode = .none) {paths : List String} {index planned maxBytes : Nat} {run : Run}
    (fetched : 1 ≤ run.pagesFetched) :
    (collectPages rowValid input startedAt turns paths index planned maxBytes run).1.pagesDeclared = run.pagesDeclared ∧
      (collectPages rowValid input startedAt turns paths index planned maxBytes run).1.itemsDeclared =
      run.itemsDeclared := by
  induction paths generalizing index planned maxBytes run with
  | nil => exact ⟨rfl,rfl⟩
  | cons path rest ih =>
    unfold collectPages
    split
    · exact ⟨rfl,rfl⟩
    · rw [if_neg (by simp [honest,FaultMode.skipsPage])]
      have kept := (attempted input (turns index) path maxBytes run).1
      generalize attempt input (turns index) path maxBytes run = out at kept ⊢
      cases out with
      | halted run' => exact ⟨kept.pages,kept.items⟩
      | missed run' =>
        obtain ⟨pages,items⟩ := @ih (index + 1) planned maxBytes run' (kept.fetched ▸ fetched)
        exact ⟨pages.trans kept.pages,items.trans kept.items⟩
      | fetched run' page =>
        have same : run'.pagesFetched = run.pagesFetched := kept.fetched
        have later_ : declare_ page run' = run' := if_neg (by omega)
        obtain ⟨pages,items,some_⟩ := @absorbDeclared rowValid input startedAt path page run'
        rw [later_] at pages items
        dsimp only
        rw [unfaulted honest]
        split
        · exact ⟨pages.trans kept.pages,items.trans kept.items⟩
        · obtain ⟨pages',items'⟩ := @ih (index + 1) _ _ _ some_
          exact ⟨pages'.trans (pages.trans kept.pages),items'.trans (items.trans kept.items)⟩

def firstPage (input : CollectorInput) (turns : Nat → Turn) : List String → Nat → Run → Option Page
  | [],_,_ => none
  | path::rest,index,run =>
    if run.stopped then none
    else match attempt input (turns index) path input.scope.maxBytes run with
    | .halted _ => none
    | .missed run => firstPage input turns rest (index + 1) run
    | .fetched _ page => some page

theorem declaredFirst (honest : input.faultMode = .none) {paths : List String} {index : Nat} {run : Run}
    (none_ : run.pagesFetched = 0) (pages : run.pagesDeclared = none) (items : run.itemsDeclared = none) :
    (collectPages rowValid input startedAt turns paths index (index + paths.length) input.scope.maxBytes
      run).1.pagesDeclared =
        (firstPage input turns paths index run).bind (declaredCount · "pagesDeclared") ∧
      (collectPages rowValid input startedAt turns paths index (index + paths.length) input.scope.maxBytes
        run).1.itemsDeclared =
        (firstPage input turns paths index run).bind (declaredCount · "itemsDeclared") := by
  induction paths generalizing index run with
  | nil => exact ⟨pages,items⟩
  | cons path rest ih =>
    unfold collectPages firstPage
    by_cases stopped : run.stopped
    · rw [if_pos (by simp [stopped]),if_pos stopped]
      exact ⟨pages,items⟩
    rw [if_neg (by simp [stopped]),if_neg (by simp [honest,FaultMode.skipsPage]),if_neg stopped]
    have kept := (attempted input (turns index) path input.scope.maxBytes run).1
    have next : index + (path::rest).length = index + 1 + rest.length := by simp; omega
    generalize attempt input (turns index) path input.scope.maxBytes run = out at kept ⊢
    cases out with
    | halted run' => exact ⟨kept.pages.trans pages,kept.items.trans items⟩
    | missed run' =>
      rw [next]
      exact @ih (index + 1) run' (kept.fetched.trans none_) (kept.pages.trans pages) (kept.items.trans items)
    | fetched run' page =>
      have zero : run'.pagesFetched = 0 := kept.fetched.trans none_
      have first : declare_ page run' = { run' with
          pagesDeclared := declaredCount page "pagesDeclared", itemsDeclared := declaredCount page "itemsDeclared" } :=
            if_pos zero
      obtain ⟨pages,items,some_⟩ := @absorbDeclared rowValid input startedAt path page run'
      rw [first] at pages items
      dsimp only
      rw [unfaulted honest]
      split
      · exact ⟨pages,items⟩
      · obtain ⟨pages',items'⟩ := @declaredStay rowValid input startedAt turns honest rest (index + 1) _ _ _ some_
        exact ⟨pages'.trans pages,items'.trans items⟩

end

structure Closed (run run' : Run) (planned : Nat) : Prop where
  kept : Kept 1 run run'
  limits : run'.limits = run.limits
  pages : run'.errors = [] → anyLimit run.limits = false → ∀ n, run.pagesDeclared = some n → n ≤ run.pagesFetched
  items : run'.errors = [] → anyLimit run.limits = false → ∀ n, run.itemsDeclared = some n → run.rows.length = n

theorem checkedDeclared (run : Run) (planned : Nat) : Closed run (checkDeclared run planned) planned := by
  have failed : ∀ code message, ((run.error code message).errors = []) → False := by simp [Run.error]
  unfold checkDeclared
  split
  · rename_i spoken
    refine ⟨.refl 1 run,rfl,fun silent open_ => ?_,fun silent open_ => ?_⟩ <;> simp [silent,open_] at spoken
  · split
    · exact ⟨keptError run _ (by decide +kernel),rfl,fun none_ => (failed _ _ none_).elim,fun none_ =>
        (failed _ _ none_).elim⟩
    · rename_i listed
      have pages : ∀ n, run.pagesDeclared = some n → n ≤ run.pagesFetched := fun n declared => by
        by_contra fewer
        exact listed (by simp [declared,Nat.not_le.mp fewer])
      split
      · exact ⟨keptError run _ (by decide +kernel),rfl,fun none_ => (failed _ _ none_).elim,fun none_ =>
          (failed _ _ none_).elim⟩
      · rename_i same
        refine ⟨.refl 1 run,rfl,fun _ _ => pages,fun _ _ n declared => ?_⟩
        by_contra other
        exact same (by simp [declared,other])

theorem hitAny (l : LimitsHit) : hitLimits l = [] ↔ anyLimit l = false := by
  obtain ⟨pages,requests,items,time,bytes⟩ := l
  cases pages <;> cases requests <;> cases items <;> cases time <;> cases bytes <;> decide

structure Honest (c : CompletenessReport) (errors : List RunError) : Prop where
  complete : c.complete = (!anyLimit c.limitsHit && errors.isEmpty)
  truncated : c.truncated = anyLimit c.limitsHit
  pages : c.complete = true → ∀ n, c.pagesDeclared = some n → n ≤ c.pagesFetched
  items : c.complete = true → ∀ n, c.itemsDeclared = some n → c.itemsEmitted = n

theorem honestContradictions {run : RunOutput} {rows : Nat} (honest : Honest run.completeness run.errors)
    (status : run.status = "succeeded") (emitted_ : run.completeness.itemsEmitted = rows) :
    contradictions "SUCCEEDED" run rows =
      if run.completeness.pagesDeclared.any fun n => n < run.completeness.pagesFetched
        then ["pages_fetched_exceed_declared"] else [] := by
  obtain ⟨complete,truncated,pages,items⟩ := honest
  unfold contradictions
  cases whole : run.completeness.complete with
  | false =>
    have unexplained : (run.completeness.truncated && (hitLimits run.completeness.limitsHit).isEmpty &&
        decide ("SUCCEEDED" ≠ "TIMED-OUT")) = false := by
      rw [truncated]
      cases limit : anyLimit run.completeness.limitsHit with
      | false => rfl
      | true =>
        have hit : hitLimits run.completeness.limitsHit ≠ [] := fun none_ => by
          rw [(hitAny _).mp none_] at limit
          cases limit
        simp [hit]
    simp only [whole,Bool.false_and,unexplained,status,emitted_]
    simp
  | true =>
    rw [whole] at complete
    have open_ : anyLimit run.completeness.limitsHit = false := by simpa using (Bool.and_eq_true_iff.mp complete.symm).1
    have unlimited := (hitAny _).mpr open_
    rw [open_] at truncated
    have declaredItems : run.completeness.itemsDeclared.any (fun n => decide (rows ≠ n)) = false := by
      cases declared : run.completeness.itemsDeclared with
      | none => rfl
      | some n => simp [← emitted_,items whole n declared]
    have declaredPages : run.completeness.pagesDeclared.any (fun n => decide (run.completeness.pagesFetched < n)) =
        false := by
      cases declared : run.completeness.pagesDeclared with
      | none => rfl
      | some n => simpa using pages whole n declared
    simp only [unlimited,truncated,status,emitted_,declaredItems,declaredPages]
    simp

structure Agrees (result : CollectionResult) (usable : Nat) (c : RunClassification) : Prop where
  consistent : ∀ found, c.reason ≠ .contradictoryReport found
  readable : c.reason ≠ .invalidOutput
  inScope : c.reason ≠ .scopeMismatch
  truncated : result.rows = [] ∨ 0 < usable →
    (c.completeness = .truncated ↔ anyLimit result.report.completeness.limitsHit = true ∧ result.report.errors = [])
  complete : c.completeness = .complete → result.report.completeness.complete = true

theorem classifiedHonest {admitted : AdmittedRun} {result : CollectionResult} {usable : Nat}
    (name : result.report.provider.actorName = admitted.actorName)
    (scope : result.report.queryScope = admitted.queryScope)
    (none_ : contradictions "SUCCEEDED" result.report result.rows.length = []) :
    Agrees result usable (classifyReport "SUCCEEDED" result.report result.rows.length usable admitted) := by
  have hit := hitAny result.report.completeness.limitsHit
  unfold classifyReport
  dsimp only
  rw [if_neg (by simp [name,scope]),if_neg (by simp [none_])]
  split
  · rename_i useless
    have useless : 0 < result.rows.length ∧ usable = 0 := by simpa using useless
    refine ⟨nofun,nofun,nofun,fun fair => ?_,nofun⟩
    rcases fair with none_ | some_
    · rw [none_] at useless
      exact absurd useless.1 (lt_irrefl 0)
    · omega
  rw [if_neg (by decide)]
  split
  · rename_i errors
    exact ⟨nofun,nofun,nofun,fun _ => ⟨nofun,fun both => absurd both.2 errors⟩,nofun⟩
  rename_i errors
  have errors : result.report.errors = [] := not_not.mp errors
  split
  · rename_i limited
    have limited : hitLimits result.report.completeness.limitsHit ≠ [] := by simpa using limited
    refine ⟨nofun,nofun,nofun,fun _ => ⟨fun _ => ⟨?_,errors⟩,fun _ => rfl⟩,nofun⟩
    by_contra open_
    exact limited (hit.mpr (by simpa using open_))
  rename_i unlimited
  have open_ : anyLimit result.report.completeness.limitsHit = false := hit.mp (by simpa using unlimited)
  have untruncated : ¬(anyLimit result.report.completeness.limitsHit = true ∧ result.report.errors = []) := by
    simp [open_]
  split
  · split
    · rename_i empty
      exact ⟨nofun,nofun,nofun,fun _ => ⟨nofun,fun both => (untruncated both).elim⟩,fun _ => by simp_all⟩
    · exact ⟨nofun,nofun,nofun,fun _ => ⟨nofun,fun both => (untruncated both).elim⟩,nofun⟩
  split
  · exact ⟨nofun,nofun,nofun,fun _ => ⟨nofun,fun both => (untruncated both).elim⟩,nofun⟩
  rename_i whole
  split
  · exact ⟨nofun,nofun,nofun,fun _ => ⟨nofun,fun both => (untruncated both).elim⟩,nofun⟩
  · exact ⟨nofun,nofun,nofun,fun _ => ⟨nofun,fun both => (untruncated both).elim⟩,fun _ => by simpa using whole⟩

def Declarable (page : Option Page) : Prop := ∀ p, page = some p →
  (∀ n, declaredCount p "pagesDeclared" = some n → 1 ≤ n ∧ n ≤ 100000) ∧ ∀ n, declaredCount p "itemsDeclared" =
    some n → n ≤ 100000

theorem reportedFew (errors : List RunError) : (reportedErrors errors).length ≤ 50 := by
  unfold reportedErrors maxErrors
  split
  · simp
  · omega

theorem countTextLength {n width : Nat} (positive : 0 < width) (bound : n < 10 ^ width) :
    (countText n).length ≤ width := by
  simpa [countText] using Text.natTextLength positive bound

theorem reportedWorded {errors : List RunError} (all : ∀ e ∈ errors, Worded e) (few : errors.length < 10 ^ 30) :
    ∀ e ∈ reportedErrors errors, Worded e := by
  intro e mem
  unfold reportedErrors at mem
  split at mem
  · rcases List.mem_append.mp mem with kept | overflow
    · exact all e (List.mem_of_mem_take kept)
    · rw [List.mem_singleton] at overflow
      subst overflow
      have code : text 1 64 errorCode (.str "errors_truncated") = some "errors_truncated" := by decide +kernel
      refine ⟨code,?_⟩
      have short := countTextLength (by decide) few
      have suffix : " errors".length = 7 := rfl
      rw [String.length_append,suffix]
      omega
  · exact all e mem

theorem reportedNone {errors : List RunError} : reportedErrors errors = [] ↔ errors = [] := by
  unfold reportedErrors maxErrors
  split
  · rename_i many
    constructor
    · intro none_
      simp at none_
    · intro none_
      rw [none_] at many
      simp at many
  · rfl

section
variable (rowValid : Json → Bool) (startedAt : String) (turns : Nat → Turn) {input : CollectorInput}

theorem scopeRead (valid : input.valid = true) : QueryScope.read (queryScopeJson input.scope) = some input.scope := by
  simp only [CollectorInput.valid,Bool.and_eq_true,decide_eq_true_eq] at valid
  obtain ⟨⟨⟨⟨⟨⟨⟨⟨⟨⟨⟨⟨⟨⟨⟨⟨site,scope⟩,category⟩,i⟩,i'⟩,p⟩,p'⟩,r⟩,r'⟩,b⟩,b'⟩,t⟩,t'⟩,_⟩,_⟩,_⟩,_⟩ := valid
  exact queryScopeRead site scope category ⟨i,i'⟩ ⟨p,p'⟩ ⟨r,r'⟩ ⟨b,b'⟩ ⟨t,t'⟩

theorem finished (honest : input.faultMode = .none) (run : Run) (planned : Nat) : finish run input planned =
    ⟨(checkDeclared run planned).rows,runSchemaVersion,
      ⟨"succeeded",
        ⟨!anyLimit (checkDeclared run planned).limits && (checkDeclared run planned).errors.isEmpty,
          anyLimit (checkDeclared run planned).limits,(checkDeclared run planned).limits,
          (checkDeclared run planned).pagesDeclared,(checkDeclared run planned).pagesFetched,
          (checkDeclared run planned).itemsDeclared,(checkDeclared run planned).rows.length⟩,
        input.scope,⟨"hw-radar-synthetic-collector","1.0","synthetic"⟩,reportedErrors
        (checkDeclared run planned).errors⟩,true⟩ := by
  simp [finish,honest]

structure Collected (input : CollectorInput) (first : Option Page) (result : CollectionResult) : Prop where
  read : RunOutput.read result.output =
    if Reportable (first.bind (declaredCount · "pagesDeclared")) ∧
      Reportable (first.bind (declaredCount · "itemsDeclared"))
      then some result.report else none
  version : result.schemaVersion = runSchemaVersion
  scope : result.report.queryScope = input.scope
  actor : result.report.provider.actorName = "hw-radar-synthetic-collector"
  contradicted : contradictions "SUCCEEDED" result.report result.rows.length =
    if (first.bind (declaredCount · "pagesDeclared")) = some 0 then ["pages_fetched_exceed_declared"] else []

theorem collected (valid : input.valid = true) (honest : input.faultMode = .none) :
    Collected input (firstPage input turns input.fixturePaths 0 {}) (collect rowValid input startedAt turns) := by
  have start : Counted input 0 input.fixturePaths.length {} :=
    ⟨le_rfl,Nat.zero_le _,nofun,Nat.zero_le _,nofun,fun _ => ⟨rfl,rfl⟩⟩
  obtain ⟨tried,bound,counted⟩ := @counts rowValid input startedAt turns honest input.fixturePaths 0
    input.fixturePaths.length input.scope.maxBytes {} start
  obtain ⟨pages,items⟩ := @declaredFirst rowValid input startedAt turns honest input.fixturePaths 0 {} rfl rfl rfl
  rw [Nat.zero_add] at pages items bound
  have valid_ := valid
  simp only [CollectorInput.valid,Bool.and_eq_true,decide_eq_true_eq] at valid_
  have paths : input.fixturePaths.length ≤ 20 := valid_.1.2
  have cap : input.scope.maxItems ≤ 500 := by
    obtain ⟨⟨⟨⟨⟨⟨⟨⟨⟨⟨⟨⟨⟨⟨⟨⟨_,_⟩,_⟩,_⟩,cap⟩,_⟩,_⟩,_⟩,_⟩,_⟩,_⟩,_⟩,_⟩,_⟩,_⟩,_⟩,_⟩ := valid_
    exact cap
  unfold collect
  dsimp only
  generalize collectPages rowValid input startedAt turns input.fixturePaths 0 input.fixturePaths.length
    input.scope.maxBytes {} = out at counted pages items ⊢
  obtain ⟨run,planned⟩ := out
  obtain ⟨kept,limits,wholePages,wholeItems⟩ := checkedDeclared run planned
  have after := counted.kept kept
  rw [finished honest]
  dsimp only at pages items kept limits wholePages wholeItems after ⊢
  generalize checkDeclared run planned = checked at kept limits wholePages wholeItems after ⊢
  have pages := kept.pages.trans pages
  have items := kept.items.trans items
  have rows := after.rows
  have fetched := after.fetched
  have few : checked.errors.length < 10 ^ 30 := by
    have le := after.few
    have total : (tried + 1) * 2 ^ 63 ≤ 21 * 2 ^ 63 := Nat.mul_le_mul_right _ (by omega)
    calc checked.errors.length ≤ 21 * 2 ^ 63 := le.trans total
      _ < 10 ^ 30 := by norm_num
  have silent : (reportedErrors checked.errors).isEmpty = checked.errors.isEmpty := by
    rw [Bool.eq_iff_iff,List.isEmpty_iff,List.isEmpty_iff,reportedNone]
  refine ⟨?_,rfl,rfl,rfl,?_⟩
  · rw [← pages,← items]
    exact outputRead rfl rfl (by dsimp only; omega) (by dsimp only; omega) rfl (scopeRead valid) rfl (reportedFew _)
      (reportedWorded after.worded few)
  · have complete : (!anyLimit checked.limits && checked.errors.isEmpty) = true →
        checked.errors = [] ∧ anyLimit run.limits = false := fun whole => by
      rw [← limits]
      simpa [and_comm] using whole
    rw [← pages,honestContradictions ⟨by rw [silent],rfl,fun whole n declared => ?_,fun whole n declared => ?_⟩ rfl rfl]
    · cases declared : checked.pagesDeclared with
      | none => simp
      | some n =>
        obtain ⟨one,bounded,_⟩ := after.declared n declared
        by_cases zero : n = 0
        · subst zero
          simp [Nat.lt_of_lt_of_le Nat.zero_lt_one one]
        · have inside : checked.pagesFetched ≤ n := bounded.resolve_left zero
          simp [zero,inside]
    · obtain ⟨none_,open_⟩ := complete whole
      have same := wholePages none_ open_ n (kept.pages.symm.trans declared)
      rw [← kept.fetched] at same
      exact same
    · obtain ⟨none_,open_⟩ := complete whole
      have same := wholeItems none_ open_ n (kept.items.symm.trans declared)
      rw [← kept.rows] at same
      exact same

theorem validatedFields {fields : List (String × Json)}
    (version : isText (lookup "schemaVersion" fields) runSchemaVersion = true) :
    validated (.decoded (.obj fields)) = (RunOutput.read (.obj fields)).elim (.error .invalidOutput) .ok := by
  simp only [validated,version,Bool.not_true,Bool.false_eq_true,if_false]
  cases RunOutput.read (.obj fields) <;> rfl

theorem honestReports (valid : input.valid = true) (honest : input.faultMode = .none) {admitted : AdmittedRun}
    (scope : admitted.queryScope = input.scope) (actor : admitted.actorName = "hw-radar-synthetic-collector")
    {usable : Nat} (within : usable ≤ (collect rowValid input startedAt turns).rows.length) :
    ∃ c, classifyRun "SUCCEEDED" (.decoded (collect rowValid input startedAt turns).output)
        (collect rowValid input startedAt turns).rows.length usable admitted = some c ∧
      (Agrees (collect rowValid input startedAt turns) usable c ↔
        Declarable (firstPage input turns input.fixturePaths 0 {})) := by
  obtain ⟨read,version,echoed,name,contradicted⟩ := collected rowValid startedAt turns valid honest
  generalize collect rowValid input startedAt turns = result at read version echoed name contradicted within ⊢
  generalize firstPage input turns input.fixturePaths 0 {} = first at read contradicted ⊢
  -- all that an honest collector reports is its own but the counts of the first page
  have declarable : Declarable first ↔ Reportable (first.bind (declaredCount · "pagesDeclared")) ∧
      Reportable (first.bind (declaredCount · "itemsDeclared")) ∧
        first.bind (declaredCount · "pagesDeclared") ≠ some 0 := by
    cases first with
    | none => simp [Declarable,Reportable]
    | some page =>
      simp only [Declarable,Reportable,Option.bind_some,Option.some.injEq,forall_eq']
      constructor
      · rintro ⟨pages,items⟩
        exact ⟨fun n declared => (pages n declared).2,items,fun zero => absurd (pages 0 zero).1 (by decide)⟩
      · rintro ⟨pages,items,some_⟩
        refine ⟨fun n declared => ⟨Nat.one_le_iff_ne_zero.mpr fun zero => ?_,pages n declared⟩,items⟩
        exact some_ (zero ▸ declared)
  have answer : classifyRun "SUCCEEDED" (.decoded result.output) result.rows.length usable admitted =
      some ((RunOutput.read result.output).elim (failed .invalidOutput) fun run =>
        classifyReport "SUCCEEDED" run result.rows.length usable admitted) := by
    have terminal : (!terminalRunStatuses.contains "SUCCEEDED" || decide (result.rows.length < usable)) = false := by
      rw [decide_eq_false (Nat.not_lt.mpr within)]
      decide
    have spoken : validated (.decoded result.output) =
        (RunOutput.read result.output).elim (.error .invalidOutput) .ok := by
      refine validatedFields ?_
      rw [version]
      rfl
    unfold classifyRun
    rw [terminal,if_neg (by decide),spoken]
    cases RunOutput.read result.output with
    | none => rfl
    | some run => rfl
  rw [answer,read,declarable]
  by_cases readable : Reportable (first.bind (declaredCount · "pagesDeclared")) ∧
      Reportable (first.bind (declaredCount · "itemsDeclared"))
  · rw [if_pos readable,Option.elim_some]
    refine ⟨_,rfl,?_⟩
    by_cases zero : first.bind (declaredCount · "pagesDeclared") = some 0
    · rw [if_pos zero] at contradicted
      refine ⟨fun agrees => absurd ?_ (agrees.consistent ["pages_fetched_exceed_declared"]),fun all =>
        absurd zero all.2.2⟩
      unfold classifyReport
      dsimp only
      rw [if_neg (by simp [name,actor,echoed,scope]),if_pos (by simp [contradicted]),contradicted]
      rfl
    · rw [if_neg zero] at contradicted
      exact ⟨fun _ => ⟨readable.1,readable.2,zero⟩,fun _ =>
        classifiedHonest (name.trans actor.symm) (echoed.trans scope.symm) contradicted⟩
  · rw [if_neg readable,Option.elim_none]
    exact ⟨_,rfl,fun agrees => absurd rfl agrees.readable,fun all => absurd ⟨all.1,all.2.1⟩ readable⟩

end

def catalogInput : CollectorInput :=
  { scope := ⟨"synthetic","synthetic:ram:ddr4","ram",10,5,5,100000,60⟩
    fixtureCommit := "0123456789abcdef0123456789abcdef01234567"
    fixturePaths := ["catalog/page-1.json"]
    faultMode := .none }

def catalogPage (pages items : Nat) : Body :=
  ⟨.obj [("listings",.arr [.obj [("id",.str "a-1")]]),("pagesDeclared",number pages),("itemsDeclared",number items)],
    fun page same => by cases same; simp [listed,lookup]⟩

def catalogTurns (pages items : Nat) (_ : Nat) : Turn :=
  ⟨false,.response 200 [(900,false)] (.complete (catalogPage pages items))⟩

def catalogRun (pages items : Nat) : CollectionResult :=
  collect (fun _ => true) catalogInput "2026-07-01T12:00:00Z" (catalogTurns pages items)

def catalogAdmitted : AdmittedRun := ⟨catalogInput.scope,"hw-radar-synthetic-collector"⟩

theorem honestReportsCatalog : ∃ c,
    classifyRun "SUCCEEDED" (.decoded (catalogRun 1 1).output) (catalogRun 1 1).rows.length 1 catalogAdmitted = some c ∧
      (Agrees (catalogRun 1 1) 1 c ↔
        Declarable (firstPage catalogInput (catalogTurns 1 1) catalogInput.fixturePaths 0 {})) :=
  honestReports (fun _ => true) "2026-07-01T12:00:00Z" (catalogTurns 1 1) (by decide +kernel) rfl rfl rfl
    (by decide +kernel)

theorem declaredOutOfRange : catalogInput.valid = true ∧
    classifyRun "SUCCEEDED" (.decoded (catalogRun 1 100001).output)
    (catalogRun 1 100001).rows.length 1 catalogAdmitted =
      some (failed .invalidOutput) ∧
    classifyRun "SUCCEEDED" (.decoded (catalogRun 0 1).output) (catalogRun 0 1).rows.length 1 catalogAdmitted =
      some (failed (.contradictoryReport ["pages_fetched_exceed_declared"])) := by
  refine ⟨by decide +kernel,?_,?_⟩
  · rfl
  · rfl

end HwRadar.Apify.Collector
