import HwRadar.Retention.Sweep

/-! Rows that are renewed while a sweep runs. The whole predicate is evaluated by the
delete's SELECT, and its DELETE by primary key follows; a row that is renewed between
the two is deleted with its new content. -/
namespace HwRadar.Retention
open HwRadar.Base HwRadar.Ingest

def UniqueKeys (m : Market) : Prop := (m.listings.map Listing.sourceListingKey).Nodup

def StillExpired (now : Int) (s : Store) (key : String) (incarnation : Nat) : Prop :=
  ∀ l ∈ s.market.listings, l.sourceListingKey = key → s.incarnation key = incarnation → expired now l.retention = true

def Selected (now : Int) (s : Store) : Phase → Prop
  | .cascade _ collected => ∀ key incarnation, Pk.listing key incarnation ∈ collected →
      StillExpired now s key incarnation ∧ (s.incarnation key = incarnation → s.edges key = 0)
  | .delete _ collected => ∀ key incarnation edges, (Pk.listing key incarnation,edges) ∈ collected →
      StillExpired now s key incarnation ∧ edges = 0
  | _ => True

def Safe (s : System) : Event → System → Prop
  | .sweep _,t => ∀ l ∈ s.db.market.listings,
      (l ∉ t.db.market.listings → expired s.sweep.now l.retention = true) ∧
      ((∀ l' ∈ t.db.market.listings, l'.sourceListingKey ≠ l.sourceListingKey) → s.db.edges l.sourceListingKey = 0)
  | .other _,_ => True

section
variable {m : Market}

theorem uniqueRows {m' : Market} (same : m'.listings = m.listings) (unique : UniqueKeys m) : UniqueKeys m' := by
  rw [UniqueKeys,same]
  exact unique

theorem uniqueMap {f : Listing → Listing} {snapshots : List OfferSnapshot}
    (keeps : ∀ l, (f l).sourceListingKey = l.sourceListingKey) (unique : UniqueKeys m) :
    UniqueKeys { m with listings := m.listings.map f, snapshots } := by
  have same : (m.listings.map f).map Listing.sourceListingKey = m.listings.map Listing.sourceListingKey := by
    rw [List.map_map]
    exact List.map_congr_left fun l _ => keeps l
  rw [UniqueKeys,same]
  exact unique

theorem uniqueSave (l : Listing) (unique : UniqueKeys m) : UniqueKeys (m.saveListing l) := by
  cases found : m.listing l.sourceListingKey with
  | some row =>
    simp only [Market.saveListing,found,Option.isSome_some,if_true]
    refine uniqueMap (fun row => ?_) unique
    split
    · rename_i own
      exact own.symm
    · rfl
  | none =>
    simp only [Market.saveListing,found,Option.isSome_none,Bool.false_eq_true,if_false,UniqueKeys,List.map_append]
    refine List.nodup_append.mpr ⟨unique,List.nodup_singleton _,fun key mem own single same => ?_⟩
    rw [List.map_singleton,List.mem_singleton] at single
    obtain ⟨row,held,is⟩ := List.mem_map.mp mem
    have absent := List.find?_eq_none.mp found row held
    exact absent (by simp [is,same,single])

theorem uniqueDelist {chosen : Listing → Bool} {reason : DelistReason} {stamp : Int} (unique : UniqueKeys m) :
    UniqueKeys (m.delist chosen reason stamp) := by
  refine uniqueMap (fun l => ?_) unique
  split
  · exact markedKey
  · rfl

theorem uniqueObserved {retention : ObservationRetention} {observedAt now : Int} {record : NormalizedListing}
    (unique : UniqueKeys m) : UniqueKeys (observeRecord retention observedAt m record now).1 := by
  simp only [observeRecord,observeListing]
  split
  · split
    · split
      · exact uniqueRows rfl (uniqueDelist (uniqueSave _ unique))
      · exact uniqueRows rfl (uniqueSave _ unique)
    · exact uniqueRows rfl (uniqueSave _ unique)
  · split
    · exact uniqueRows rfl (uniqueSave _ unique)
    · exact uniqueRows rfl unique

theorem uniqueOf {l l' : Listing} (unique : UniqueKeys m) (mem : l ∈ m.listings) (mem' : l' ∈ m.listings)
    (same : l.sourceListingKey = l'.sourceListingKey) : l = l' :=
  List.inj_on_of_nodup_map unique mem mem' same

end

section
variable {canonicalizeListingText : String → String → String}

theorem uniqueStep {s t : Store} {act : Act} (unique : UniqueKeys s.market)
    (done : s.step canonicalizeListingText act = some t) : UniqueKeys t.market := by
  cases act with
  | ingest act =>
    obtain ⟨market,committed,rfl⟩ := Option.map_eq_some_iff.mp done
    exact ingestKeeps uniqueRows uniqueObserved uniqueDelist unique committed
  | read key =>
    obtain ⟨l,_,rfl⟩ := Option.map_eq_some_iff.mp done
    exact unique
  | crash k =>
    simp only [Store.step,Option.bind_eq_bind,Option.bind_eq_some_iff] at done
    obtain ⟨c,_,done⟩ := done
    split at done
    · cases done
    · cases Option.some.inj done
      exact unique
  | apply k writes =>
    simp only [Store.step,Option.bind_eq_bind,Option.bind_eq_some_iff] at done
    obtain ⟨c,_,l,_,done⟩ := done
    split at done
    · cases done
    · cases Option.some.inj done
      exact uniqueSave _ unique
  | evaluate key =>
    obtain ⟨l,_,rfl⟩ := Option.map_eq_some_iff.mp done
    exact unique
  | redactExpired now =>
    cases Option.some.inj done
    refine uniqueMap (fun l => ?_) unique
    split <;> rfl
  | delete pks =>
    cases Option.some.inj done
    exact List.Nodup.sublist (List.filter_sublist.map _) unique

def Calm (canonicalizeListingText : String → String → String) (s : System) : Event → Prop
  | .sweep _ => True
  | .other act => ∀ store, s.db.toStore.step canonicalizeListingText act = some store →
      Selected s.sweep.now store s.sweep.phase

theorem unchangedSafe {s t : System} {chosen : List Pk} (same : t.db = s.db) : Safe s (.sweep chosen) t := by
  intro l mem
  rw [same]
  exact ⟨fun out => absurd mem out,fun gone => absurd rfl (gone l mem)⟩

theorem deletableListing {s : System} {key : String} {incarnation : Nat} {table : Table}
    (mem : Pk.listing key incarnation ∈ s.deletable table) : ∃ l ∈ s.db.market.listings, l.sourceListingKey = key ∧
      s.db.incarnation key = incarnation ∧ expired s.sweep.now l.retention = true ∧ s.db.exempt l = false := by
  cases table <;> simp only [System.deletable,Database.deletable,List.mem_map,List.mem_filter,reduceCtorEq,and_false,
    exists_false,Pk.listing.injEq,Bool.and_eq_true,Bool.not_eq_true'] at mem
  obtain ⟨l,⟨held,old,kept⟩,own,same⟩ := mem
  exact ⟨l,held,own,own ▸ same,old,kept⟩

structure Sound (s : System) : Prop where
  unique : UniqueKeys s.db.market
  selected : Selected s.sweep.now s.db.toStore s.sweep.phase

theorem deletedSafe {s : System} {table : Table} {chosen pks : List Pk} {collected : List (Pk × Nat)} {phase : Phase}
    (selected : Selected s.sweep.now s.db.toStore (.delete pks collected))
    (same : ∀ pk edges, (pk,edges) ∈ collected → s.db.edgesOf pk = edges) :
    Safe s (.sweep chosen) ({ s with db := s.db.deleteRows table (collected.map Prod.fst) }.at phase) := by
  intro l mem
  cases table with
  | listing =>
    by_cases gone : ((collected.map Prod.fst).filterMap listingPk).contains
        (l.sourceListingKey,s.db.incarnation l.sourceListingKey) = true
    · obtain ⟨pk,held,is⟩ := List.mem_filterMap.mp (List.contains_iff_mem.mp gone)
      obtain ⟨⟨pk',edges⟩,entry,rfl⟩ := List.mem_map.mp held
      cases pk' with
      | offer _ _ => contradiction
      | record _ => contradiction
      | listing key incarnation =>
        cases Option.some.inj is
        obtain ⟨still,none⟩ := selected _ _ edges entry
        refine ⟨fun _ => still l mem rfl rfl,fun _ => ?_⟩
        have counted := same _ edges entry
        simp only [Database.edgesOf,if_true] at counted
        rw [counted,none]
    · have left : l ∈ (s.db.deleteRows .listing (collected.map Prod.fst)).market.listings :=
        List.mem_filter.mpr ⟨mem,by simpa using gone⟩
      exact ⟨fun out => absurd left out,fun absent => absurd rfl (absent l left)⟩
  | _ => exact ⟨fun out => absurd mem out,fun absent => absurd rfl (absent l mem)⟩

theorem deletedUnique {db : Database} {table : Table} {pks : List Pk} (unique : UniqueKeys db.market) :
    UniqueKeys (db.deleteRows table pks).market := by
  cases table with
  | listing => exact List.Nodup.sublist (List.filter_sublist.map _) unique
  | _ => exact unique

theorem collectedSelected {s : System} {table : Table} {pks : List Pk} (sound : Sound s) :
    Selected s.sweep.now s.db.toStore (.cascade pks ((s.deletable table).filter pks.contains)) := by
  intro key incarnation mem
  obtain ⟨l,held,own,reached,old,free⟩ := deletableListing (List.mem_filter.mp mem).1
  refine ⟨fun l' held' own' _ => ?_,fun _ => ?_⟩
  · rw [uniqueOf sound.unique held' held (own'.trans own.symm)]
    exact old
  · simp only [Store.exempt,Bool.or_eq_false_iff,decide_eq_false_iff_not,not_lt,Nat.le_zero] at free
    rw [← own]
    exact free.2

theorem tableStep {s t : System} {table : Table} {rest : List Table} {chosen : List Pk} (sound : Sound s)
    (done : s.sweepTable table rest chosen = some t) : Sound t ∧ Safe s (.sweep chosen) t := by
  have still := fun phase => @unchangedSafe s (s.at phase) chosen rfl
  simp only [System.sweepTable] at done
  cases is : s.sweep.phase with
  | redact =>
    rw [is] at done
    cases Option.some.inj done
    by_cases listings : table = .listing
    · simp only [if_pos listings]
      have keeps : ∀ l, (if s.db.keptExpired s.sweep.now l then l.redacted else l).sourceListingKey =
          l.sourceListingKey := by
        intro l
        split <;> rfl
      refine ⟨⟨uniqueMap keeps sound.unique,trivial⟩,fun l mem => ⟨fun out => ?_,fun absent => ?_⟩⟩
      · by_contra live
        have unkept : s.db.keptExpired s.sweep.now l = false := by simp [Store.keptExpired,live]
        exact out (List.mem_map.mpr ⟨l,mem,by simp [unkept]⟩)
      · exact absurd (keeps l) (absent _ (List.mem_map.mpr ⟨l,mem,rfl⟩))
    · simp only [if_neg listings]
      exact ⟨⟨sound.unique,trivial⟩,unchangedSafe rfl⟩
  | select =>
    rw [is] at done
    dsimp only at done
    split at done
    · cases done
    · split at done <;> cases Option.some.inj done
      · exact ⟨⟨sound.unique,trivial⟩,unchangedSafe rfl⟩
      · exact ⟨⟨sound.unique,trivial⟩,still _⟩
  | collect pks =>
    rw [is] at done
    cases Option.some.inj done
    exact ⟨⟨sound.unique,@collectedSelected s table pks sound⟩,still _⟩
  | cascade pks collected =>
    rw [is] at done
    dsimp only at done
    have selected := sound.selected
    rw [is] at selected
    split at done <;> cases Option.some.inj done
    · exact ⟨⟨sound.unique,trivial⟩,still _⟩
    · refine ⟨⟨sound.unique,fun key incarnation edges mem => ?_⟩,still _⟩
      obtain ⟨pk,held,same⟩ := List.mem_map.mp mem
      cases same
      obtain ⟨old,none⟩ := selected key incarnation held
      refine ⟨old,?_⟩
      simp only [Database.edgesOf]
      split
      · exact none ‹_›
      · rfl
  | delete pks collected =>
    rw [is] at done
    dsimp only at done
    have selected := sound.selected
    rw [is] at selected
    split at done <;> cases Option.some.inj done
    · exact ⟨⟨sound.unique,trivial⟩,still _⟩
    · rename_i counted
      simp only [List.any_eq_true,decide_eq_true_eq,not_exists,not_and,not_not] at counted
      exact ⟨⟨deletedUnique sound.unique,trivial⟩,deletedSafe selected fun pk edges mem => counted (pk,edges) mem⟩
  | check pks deleted =>
    rw [is] at done
    dsimp only at done
    split at done <;> cases Option.some.inj done
    · exact ⟨⟨sound.unique,trivial⟩,still _⟩
    · exact ⟨⟨sound.unique,trivial⟩,still _⟩
  | failed =>
    rw [is] at done
    cases done

theorem soundStep {s t : System} {e : Event} (sound : Sound s) (done : Swept canonicalizeListingText s e t)
    (calm : Calm canonicalizeListingText s e) : Sound t ∧ Safe s e t := by
  cases e with
  | sweep chosen =>
    obtain ⟨table,_,done⟩ := Option.bind_eq_some_iff.mp done
    exact tableStep sound done
  | other act =>
    simp only [Swept,System.step] at done
    split at done
    · obtain ⟨store,committed,rfl⟩ := Option.map_eq_some_iff.mp done
      exact ⟨⟨uniqueStep sound.unique committed,calm store committed⟩,trivial⟩
    · cases done

theorem safeRun {start s : System} {events : List Event} (sound : Sound start)
    (run : Runs (fun s e t => Swept canonicalizeListingText s e t ∧ Calm canonicalizeListingText s e) start events s) :
    Runs (fun s e t => Swept canonicalizeListingText s e t ∧ Safe s e t) start events s := by
  induction run with
  | nil s => exact .nil s
  | cons head tail ih =>
    obtain ⟨after,safe⟩ := soundStep sound head.1 head.2
    exact .cons ⟨head.1,safe⟩ (ih after)

end
end HwRadar.Retention
