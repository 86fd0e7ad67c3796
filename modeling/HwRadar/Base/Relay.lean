import HwRadar.Base.Run
import Mathlib.Order.Monotone.Basic
import Mathlib.Algebra.Order.Ring.Int

/-! One baton among nodes, over slots of time. A node that holds a slot keeps it,
hands it to a named node while the slot lasts, or takes the next slot as well
once that has begun; a handed slot waits for the named node, however often and
however late the notice of it is delivered. -/
namespace HwRadar.Base.Relay
universe u v w

inductive Entry (ν : Type v) where
  | none | holding
  | gave (name : ν)
  deriving DecidableEq

structure State (ι : Type u) (ν : Type v) (τ : Type w) where
  clock : ι → τ
  entry : ι → Int → Entry ν

section
variable {ι : Type u} {ν : Type v} {τ : Type w} [DecidableEq ι]

def State.write (s : State ι ν τ) (i : ι) (t : τ) (k : Int) (e : Entry ν) : State ι ν τ :=
  ⟨Function.update s.clock i t,Function.update s.entry i (Function.update (s.entry i) k e)⟩

def State.wait (s : State ι ν τ) (i : ι) (t : τ) : State ι ν τ := { s with clock := Function.update s.clock i t }

def State.Free (s : State ι ν τ) : Prop := ∀ i k, s.entry i k = .none

inductive Step [LinearOrder τ] (name : ι → ν) (start : Int → τ) (s : State ι ν τ) : Unit → State ι ν τ → Prop where
  | wait {i t} (order : s.clock i ≤ t) : Step name start s () (s.wait i t)
  | found {i t k} (order : s.clock i ≤ t) (begun : start k ≤ t) (free : s.Free) :
      Step name start s () (s.write i t k .holding)
  | advance {i t k} (order : s.clock i ≤ t) (begun : start (k + 1) ≤ t) (held : s.entry i k = .holding)
      (next : s.entry i (k + 1) = .none) : Step name start s () (s.write i t (k + 1) .holding)
  | give {i t k dest} (order : s.clock i ≤ t) (lasts : t < start (k + 1)) (held : s.entry i k = .holding) :
      Step name start s () (s.write i t k (.gave dest))
  | take {i t k giver} (order : s.clock i ≤ t) (begun : start k ≤ t) (given : s.entry giver k = .gave (name i))
      (vacant : s.entry i k = .none) : Step name start s () (s.write i t k .holding)

def Live (name : ι → ν) (s : State ι ν τ) (i : ι) (k : Int) : Prop :=
  (s.entry i k = .holding ∧ s.entry i (k + 1) = .none) ∨
  ∃ dest, s.entry i k = .gave dest ∧ ∀ j, name j = dest → s.entry j k = .none

structure Single [LinearOrder τ] (name : ι → ν) (start : Int → τ) (s : State ι ν τ) : Prop where
  past : ∀ i k, s.entry i k ≠ .none → start k ≤ s.clock i
  last : ∀ i k, Live name s i k → ∀ j m, s.entry j m ≠ .none → m ≤ k
  alone : ∀ i k j m, Live name s i k → Live name s j m → i = j ∧ k = m
  holder : ∀ i j k, s.entry i k = .holding → s.entry j k = .holding → i = j

variable {name : ι → ν} {start : Int → τ} {s s' : State ι ν τ} {i j : ι} {t : τ} {k m : Int} {e : Entry ν}

theorem entryWrite : (s.write i t k e).entry j m = if j = i ∧ m = k then e else s.entry j m := by
  by_cases node : j = i
  · subst node
    by_cases slot : m = k
    · subst slot; simp [State.write]
    · simp [State.write,slot]
  · simp [State.write,node]

theorem entryHere : (s.write i t k e).entry i k = e := by rw [entryWrite,if_pos ⟨rfl,rfl⟩]

theorem entryElse (other : ¬(j = i ∧ m = k)) : (s.write i t k e).entry j m = s.entry j m := by
  rw [entryWrite,if_neg other]

theorem liveBefore (filled : e ≠ .none) (other : ¬(j = i ∧ m = k)) (live : Live name (s.write i t k e) j m) :
    Live name s j m := by
  have emptied : ∀ x y, (s.write i t k e).entry x y = .none → s.entry x y = .none := by
    intro x y empty
    rw [entryWrite] at empty
    split at empty
    · exact absurd empty filled
    · exact empty
  rcases live with ⟨held,next⟩ | ⟨dest,gave,waiting⟩
  · exact .inl ⟨entryElse other ▸ held,emptied j (m + 1) next⟩
  · exact .inr ⟨dest,entryElse other ▸ gave,fun x same => emptied x m (waiting x same)⟩

variable [LinearOrder τ]

theorem clockGrows (order : s.clock i ≤ t) (j : ι) : s.clock j ≤ Function.update s.clock i t j := by
  by_cases node : j = i
  · subst node; simpa using order
  · simp [node]

theorem pastWrite (inv : Single name start s) (order : s.clock i ≤ t) (begun : start k ≤ t) :
    ∀ j m, (s.write i t k e).entry j m ≠ .none → start m ≤ (s.write i t k e).clock j := by
  intro j m entry
  by_cases here : j = i ∧ m = k
  · obtain ⟨rfl,rfl⟩ := here
    simpa [State.write] using begun
  · rw [entryElse here] at entry
    exact (inv.past j m entry).trans (clockGrows order j)

theorem singleMoved (inv : Single name start s) (order : s.clock i ≤ t) (begun : start k ≤ t)
    (latest : ∀ j m, s.entry j m ≠ .none → m ≤ k) (unheld : ∀ j, s.entry j k ≠ .holding)
    (spent : ∀ j m, Live name s j m → ¬Live name (s.write i t k .holding) j m) :
    Single name start (s.write i t k .holding) := by
  have only : ∀ j m, Live name (s.write i t k .holding) j m → j = i ∧ m = k := by
    intro j m live
    by_contra other
    exact spent j m (liveBefore (by simp) other live) live
  refine ⟨pastWrite inv order begun,fun j m live x y entry => ?_,fun a b c d left right => ?_,
    fun a b m left right => ?_⟩
  · obtain ⟨rfl,rfl⟩ := only j m live
    by_cases here : x = j ∧ y = m
    · exact here.2.le
    · exact latest x y (entryElse here ▸ entry)
  · obtain ⟨rfl,rfl⟩ := only a b left
    obtain ⟨rfl,rfl⟩ := only c d right
    exact ⟨rfl,rfl⟩
  · by_cases here : m = k
    · subst here
      have at_ : ∀ x, (s.write i t m .holding).entry x m = .holding → x = i := by
        intro x held
        by_contra other
        exact unheld x (entryElse (fun both => other both.1) ▸ held)
      exact (at_ a left).trans (at_ b right).symm
    · rw [entryElse fun both => here both.2] at left right
      exact inv.holder a b m left right

theorem singleStep (distinct : Function.Injective name)
    (inv : Single name start s) (step : Step name start s () s') : Single name start s' := by
  cases step with
  | wait order =>
    exact ⟨fun j m entry => (inv.past j m entry).trans (clockGrows order j),inv.last,inv.alone,inv.holder⟩
  | found order begun free =>
    refine singleMoved inv order begun (fun j m entry => absurd (free j m) entry)
      (fun j held => ?_) (fun j m live _ => ?_)
    · rw [free] at held; contradiction
    · rcases live with ⟨held,_⟩ | ⟨dest,gave,_⟩
      · rw [free] at held; contradiction
      · rw [free] at gave; contradiction
  | @advance i t k order begun held next =>
    have live : Live name s i k := .inl ⟨held,next⟩
    have latest : ∀ j m, s.entry j m ≠ .none → m ≤ k := inv.last i k live
    refine singleMoved inv order begun (fun j m entry => (latest j m entry).trans (by omega))
      (fun j later => ?_) (fun j m old new => ?_)
    · have within := latest j (k + 1) (by rw [later]; simp)
      omega
    · -- the old entry has a next slot now, so it is spent
      obtain ⟨rfl,rfl⟩ := inv.alone j m i k old live
      have own : (s.write j t (m + 1) .holding).entry j m = .holding := by
        rw [entryElse (by omega)]; exact held
      rcases new with ⟨_,open_⟩ | ⟨dest,gave,_⟩
      · rw [entryHere] at open_; contradiction
      · rw [own] at gave; contradiction
  | @give i t k dest order lasts held =>
    have next : s.entry i (k + 1) = .none := by
      by_contra some
      exact absurd ((inv.past i (k + 1) some).trans order) (not_le.mpr lasts)
    have live : Live name s i k := .inl ⟨held,next⟩
    have back : ∀ j m, Live name (s.write i t k (.gave dest)) j m → Live name s j m := by
      intro j m new
      by_cases here : j = i ∧ m = k
      · rw [here.1,here.2]; exact live
      · exact liveBefore (by simp) here new
    have entries : ∀ j m, (s.write i t k (.gave dest)).entry j m ≠ .none → s.entry j m ≠ .none := by
      intro j m entry
      by_cases here : j = i ∧ m = k
      · rw [here.1,here.2,held]; simp
      · exact entryElse here ▸ entry
    have kept : ∀ j m, (s.write i t k (.gave dest)).entry j m = .holding → s.entry j m = .holding := by
      intro j m entry
      by_cases here : j = i ∧ m = k
      · rw [here.1,here.2,held]
      · exact entryElse here ▸ entry
    exact ⟨fun j m entry => (inv.past j m (entries j m entry)).trans (clockGrows order j),
      fun j m new x y entry => inv.last j m (back j m new) x y (entries x y entry),
      fun a b c d left right => inv.alone a b c d (back a b left) (back c d right),
      fun a b m left right => inv.holder a b m (kept a m left) (kept b m right)⟩
  | @take i t k giver order begun given vacant =>
    have live : Live name s giver k := .inr ⟨name i,given,fun j same => distinct same ▸ vacant⟩
    have latest : ∀ j m, s.entry j m ≠ .none → m ≤ k := inv.last giver k live
    refine singleMoved inv order begun latest (fun j held => ?_) (fun j m old new => ?_)
    · -- a held entry of the last slot is live, and the given one already is
      have next : s.entry j (k + 1) = .none := by
        by_contra some
        have within := latest j (k + 1) some
        omega
      obtain ⟨rfl,_⟩ := inv.alone j k giver k (.inl ⟨held,next⟩) live
      rw [held] at given
      cases given
    · obtain ⟨rfl,rfl⟩ := inv.alone j m giver k old live
      have differs : ¬(j = i ∧ m = m) := by
        rintro ⟨rfl,_⟩
        rw [vacant] at given
        cases given
      have own : (s.write i t m .holding).entry j m = .gave (name i) := by rw [entryElse differs]; exact given
      rcases new with ⟨held,_⟩ | ⟨dest,gave,waiting⟩
      · rw [own] at held; contradiction
      · rw [own] at gave
        obtain rfl := Entry.gave.inj gave
        have empty := waiting i rfl
        rw [entryHere] at empty
        cases empty

theorem singleRun {trace} (distinct : Function.Injective name)
    (run : Runs (Step name start) s trace s') (free : s.Free) : Single name start s' := by
  refine run.invariant (Single name start) (fun inv step => singleStep distinct inv step) ?_
  have dead : ∀ i k, ¬Live name s i k := by
    rintro i k (⟨held,_⟩ | ⟨dest,gave,_⟩)
    · rw [free] at held; contradiction
    · rw [free] at gave; contradiction
  exact ⟨fun i k entry => absurd (free i k) entry,fun i k live => absurd live (dead i k),
    fun i k _ _ live => absurd live (dead i k),fun i _ k held => by rw [free] at held; contradiction⟩

end
end HwRadar.Base.Relay
