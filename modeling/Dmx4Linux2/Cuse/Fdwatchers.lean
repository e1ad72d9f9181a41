import Dmx4Linux2.Common.Run
import Dmx4Linux2.Cuse.Model.Fdwatchers

/-!
# CUSE framework — the fd watchers as a map

The table is meant to be a map from files to their callbacks. The search
in it does not end at its last entry: while there is room for one more
watcher (`num` below 256) a file that no entry has sends it on behind the
table, and an entry never used has the file 0. Once there is no room it
looks at no entry at all. So a watcher is never added (`add_fails`), and
`loaded_calls_iff` says which calls are as with a map: those for watched
files while there is room, and those that fail when there is none.
-/

namespace Dmx4Linux2

namespace Cuse

variable {t t' : FdwatcherTable} {w : Fdwatcher} {ws : List Fdwatcher} {i j : Fin 256}

/-! ## The map -/

/-- A call a driver makes. -/
inductive WatchCall
  | add (w : Fdwatcher)
  | remove (w : Fdwatcher)

namespace WatchCall

/-- The watcher it is given. -/
def watcher : WatchCall → Fdwatcher
  | add w => w
  | remove w => w

/-- The call on the table. -/
def on (t : FdwatcherTable) : WatchCall → Option (Errno × FdwatcherTable)
  | add w => t.add w
  | remove w => t.remove w

/-- The calls a map of at most 256 files refuses. -/
def Refused (ws : List Fdwatcher) : WatchCall → Prop
  | add w => w.fd ∈ ws.map Fdwatcher.fd ∨ 256 ≤ ws.length
  | remove w => w.fd ∉ ws.map Fdwatcher.fd

instance (ws : List Fdwatcher) : DecidablePred (Refused ws)
  | add _ => inferInstanceAs (Decidable (_ ∨ _))
  | remove _ => inferInstanceAs (Decidable (¬ _))

/-- What is watched after it. -/
def watched (ws : List Fdwatcher) (c : WatchCall) : List Fdwatcher :=
  if c.Refused ws then ws else
  match c with
  | add w => w :: ws
  | remove w => ws.filter fun w' => w'.fd ≠ w.fd

end WatchCall

/-- The entries the main loop selects on are the watchers of the list,
each file once. -/
structure FdwatcherTable.Holds (t : FdwatcherTable) (ws : List Fdwatcher) : Prop where
  watchers : ∀ w, w ∈ ws ↔ ∃ i, t.Live i ∧ t.watchers i = w
  once : ∀ i j, t.Live i → t.Live j → (t.watchers i).fd = (t.watchers j).fd → i = j

/-- The table, and the watchers that should be in it. -/
structure Watching where
  table : FdwatcherTable
  watched : List Fdwatcher

namespace Watching

variable (s : Watching)

/-- A call. Where a search leaves the table nothing is known of what
comes after; here the table stays as it is. -/
def step (c : WatchCall) : Watching where
  table := ((c.on s.table).map Prod.snd).getD s.table
  watched := c.watched s.watched

/-- **The call is as with a map**: its searches stay in the table, it
fails when a map refuses it, and the entries are the watchers. -/
structure MapLike (c : WatchCall) : Prop where
  inside : (c.on s.table).isSome
  fails : ∀ r ∈ c.on s.table, r.1 ≠ .success ↔ c.Refused s.watched
  holds : (s.step c).table.Holds (s.step c).watched

end Watching

/-! ## The search -/

namespace FdwatcherTable

variable {fd : ℤ}

/-- With no room for a watcher it looks at no entry. -/
theorem findFd_of_full (h : 256 ≤ t.num) : t.findFd fd = some none := if_neg (by omega)

/-- With room it does not end where no entry has the file. -/
theorem findFd_ne_absent (h : t.num < 256) : t.findFd fd ≠ some none := by
  rw [findFd, if_pos h]
  simp

/-- The entry it finds has the file, and none before it has. -/
theorem findFd_eq_some (h : t.num < 256) (hfind : t.findFd fd = some (some i)) :
    (t.watchers i).fd = fd ∧ ∀ j < i, (t.watchers j).fd ≠ fd := by
  rw [findFd, if_pos h, Option.map_eq_some_iff] at hfind
  obtain ⟨i', hfirst, hi⟩ := hfind
  cases hi
  obtain ⟨hfd, k, hk, hki, hbefore⟩ := List.find?_eq_some_iff_getElem.1 hfirst
  refine ⟨of_decide_eq_true hfd, fun j hj => ?_⟩
  have hval : i.val = k := by
    rw [← hki]
    simp
  have hnot := hbefore j.val (by omega)
  simpa using hnot

/-- A file that an entry has is found, there or before. -/
theorem findFd_of_entry (h : t.num < 256) (hfd : (t.watchers i).fd = fd) :
    ∃ j ≤ i, t.findFd fd = some (some j) ∧ (t.watchers j).fd = fd := by
  have hsome : ((List.finRange 256).find? fun i => (t.watchers i).fd = fd).isSome := by
    rw [List.find?_isSome]
    exact ⟨i, List.mem_finRange i, decide_eq_true hfd⟩
  obtain ⟨j, hj⟩ := Option.isSome_iff_exists.1 hsome
  have hfind : t.findFd fd = some (some j) := by
    rw [findFd, if_pos h, hj]
    rfl
  -- an entry behind this one would not have been the first
  obtain ⟨hjfd, hbefore⟩ := findFd_eq_some h hfind
  refine ⟨j, ?_, hfind, hjfd⟩
  by_contra hlt
  exact hbefore i (not_le.1 hlt) hfd

/-- The table with an entry given up. -/
def without (t : FdwatcherTable) (i : Fin 256) : FdwatcherTable :=
  { t with watchers := Function.update t.watchers i ⟨-1, 0, 0⟩ }

theorem without_watchers (h : j ≠ i) : (t.without i).watchers j = t.watchers j :=
  Function.update_of_ne h _ _

theorem without_live : (t.without i).Live j ↔ j ≠ i ∧ t.Live j := by
  by_cases hj : j = i
  · subst hj
    simp [Live, without]
  · simp [Live, without, hj]

/-! ## The calls -/

/-- Where the search does not end, neither does the call. -/
theorem on_of_none {c : WatchCall} (h : t.findFd c.watcher.fd = none) : c.on t = none := by
  cases c with
  | add w =>
    simp only [WatchCall.watcher] at h
    simp [WatchCall.on, add, h]
  | remove w =>
    simp only [WatchCall.watcher] at h
    simp [WatchCall.on, remove, h]

theorem add_of_entry (h : t.findFd w.fd = some (some i)) : t.add w = some (.einval, t) := by
  simp [add, h]

theorem remove_of_entry (h : t.findFd w.fd = some (some i)) :
    t.remove w = some (.success, t.without i) := by
  simp [remove, without, h]

theorem add_of_full (h : 256 ≤ t.num) : t.add w = some (.enomem, t) := by
  simp [add, findFd_of_full h]

theorem remove_of_full (h : 256 ≤ t.num) : t.remove w = some (.einval, t) := by
  simp [remove, findFd_of_full h]

/-- **A watcher is never added.** Where the search for its file ends
without an entry, for want of room, so does the one for a free entry. -/
theorem add_fails {r : Errno × FdwatcherTable} (h : t.add w = some r) :
    r.1 ≠ .success ∧ r.2 = t := by
  rcases Nat.lt_or_ge t.num 256 with hroom | hfull
  · cases hfind : t.findFd w.fd with
    | none =>
      have hnone : t.add w = none := on_of_none (c := .add w) hfind
      rw [hnone] at h
      cases h
    | some found =>
      cases found with
      | none => exact absurd hfind (findFd_ne_absent hroom)
      | some i =>
        rw [add_of_entry hfind] at h
        cases h
        simp
  · rw [add_of_full hfull] at h
    cases h
    simp

/-- The number of watchers stays as it is. -/
theorem on_num {c : WatchCall} {r : Errno × FdwatcherTable} (h : c.on t = some r) :
    r.2.num = t.num := by
  cases c with
  | add w => rw [(add_fails h).2]
  | remove w =>
    simp only [WatchCall.on, remove] at h
    cases hfind : t.findFd w.fd with
    | none => simp [hfind] at h
    | some found =>
      cases found <;>
      · simp only [hfind] at h
        cases h
        rfl

namespace Holds

variable (hold : t.Holds ws)
include hold

/-- A live entry is the one the search for its file ends at: one before
it with the same file would be live as well. -/
theorem findFd_of_live (h : t.num < 256) (hlive : t.Live i) :
    t.findFd (t.watchers i).fd = some (some i) := by
  obtain ⟨j, hji, hfind, hfd⟩ := findFd_of_entry h (i := i) rfl
  have hjlive : t.Live j := by
    refine ⟨by have := hlive.1; omega, ?_⟩
    rw [hfd]
    exact hlive.2
  rw [hfind, hold.once j i hjlive hlive hfd]

/-- So the watched files are found. -/
theorem findFd_of_mem (h : t.num < 256) {fd : ℤ} (hmem : fd ∈ ws.map Fdwatcher.fd) :
    ∃ i, t.Live i ∧ (t.watchers i).fd = fd ∧ t.findFd fd = some (some i) := by
  obtain ⟨w, hw, rfl⟩ := List.mem_map.1 hmem
  obtain ⟨i, hlive, rfl⟩ := (hold.watchers w).1 hw
  exact ⟨i, hlive, rfl, hold.findFd_of_live h hlive⟩

/-- With an entry given up the table holds the watchers of the other
files. -/
theorem without (hlive : t.Live i) :
    (t.without i).Holds (ws.filter fun w => w.fd ≠ (t.watchers i).fd) := by
  constructor
  · intro w
    rw [List.mem_filter, hold.watchers w]
    constructor
    · rintro ⟨⟨j, hjlive, rfl⟩, hne⟩
      have hj : j ≠ i := by
        rintro rfl
        simp at hne
      exact ⟨j, without_live.2 ⟨hj, hjlive⟩, without_watchers hj⟩
    · rintro ⟨j, hj', rfl⟩
      obtain ⟨hj, hjlive⟩ := without_live.1 hj'
      rw [without_watchers hj]
      have hne : (t.watchers j).fd ≠ (t.watchers i).fd := by
        intro hfd
        exact hj (hold.once j i hjlive hlive hfd)
      exact ⟨⟨j, hjlive, rfl⟩, decide_eq_true hne⟩
  · intro j k hj' hk' hfd
    obtain ⟨hj, hjlive⟩ := without_live.1 hj'
    obtain ⟨hk, hklive⟩ := without_live.1 hk'
    rw [without_watchers hj, without_watchers hk] at hfd
    exact hold.once j k hjlive hklive hfd

end Holds

end FdwatcherTable

/-! ## Runs -/

namespace Watching

variable {s : Watching} {c : WatchCall}

/-- **What keeps the table like a map**: while there is room for a watcher
calls are for watched files, and after that only calls a map refuses are
made. -/
def Fits (s : Watching) (c : WatchCall) : Prop :=
  if s.table.num < 256 then c.watcher.fd ∈ s.watched.map Fdwatcher.fd else c.Refused s.watched

/-- The table is that of the watchers, and full when they are 256. -/
structure Mapped (s : Watching) : Prop where
  holds : s.table.Holds s.watched
  count : s.table.num < 256 ↔ s.watched.length < 256

theorem step_of_some {r : Errno × FdwatcherTable} (h : c.on s.table = some r) :
    s.step c = ⟨r.2, c.watched s.watched⟩ := by
  simp [step, h]

/-- A call that ends is as with a map when it fails just where a map
refuses, and leaves the table right. -/
theorem mapLike_iff {r : Errno × FdwatcherTable} (h : c.on s.table = some r) :
    s.MapLike c ↔ (r.1 ≠ .success ↔ c.Refused s.watched) ∧ r.2.Holds (c.watched s.watched) := by
  constructor
  · intro hmap
    have hholds := hmap.holds
    rw [step_of_some h] at hholds
    exact ⟨hmap.fails r h, hholds⟩
  · rintro ⟨hfails, hholds⟩
    refine ⟨by rw [h]; rfl, fun r' hr' => ?_, ?_⟩
    · rw [h] at hr'
      cases hr'
      exact hfails
    · rw [step_of_some h]
      exact hholds

theorem watched_of_refused (h : c.Refused s.watched) : c.watched s.watched = s.watched := if_pos h

/-- A call for a watched file, with room: an `add` is refused, and a
`remove` finds the entry. -/
theorem mapLike_of_watched (hs : s.Mapped) (hroom : s.table.num < 256)
    (hmem : c.watcher.fd ∈ s.watched.map Fdwatcher.fd) : s.MapLike c := by
  -- both calls search for the file first
  obtain ⟨i, hlive, hfd, hfind⟩ := hs.holds.findFd_of_mem hroom hmem
  cases c with
  | add w =>
    have hrefused : (WatchCall.add w).Refused s.watched := Or.inl hmem
    have hon : (WatchCall.add w).on s.table = some (.einval, s.table) :=
      FdwatcherTable.add_of_entry hfind
    refine (mapLike_iff hon).2 ⟨?_, ?_⟩
    · exact iff_of_true (by simp) hrefused
    · rw [watched_of_refused hrefused]
      exact hs.holds
  | remove w =>
    have haccepted : ¬ (WatchCall.remove w).Refused s.watched := not_not_intro hmem
    have hon : (WatchCall.remove w).on s.table = some (.success, s.table.without i) :=
      FdwatcherTable.remove_of_entry hfind
    refine (mapLike_iff hon).2 ⟨?_, ?_⟩
    · exact iff_of_false (by simp) haccepted
    · have hwithout := hs.holds.without hlive
      rw [hfd] at hwithout
      rw [WatchCall.watched, if_neg haccepted]
      exact hwithout

/-- One for a file that is not: where the search ends at all it ends at an
entry never used, or given up. -/
theorem not_mapLike_of_unwatched (hs : s.Mapped) (hroom : s.table.num < 256)
    (hmem : c.watcher.fd ∉ s.watched.map Fdwatcher.fd) : ¬ s.MapLike c := by
  intro hmap
  have hlength := hs.count.1 hroom
  cases hfind : s.table.findFd c.watcher.fd with
  | none =>
    have hinside := hmap.inside
    rw [FdwatcherTable.on_of_none hfind] at hinside
    cases hinside
  | some found =>
    cases found with
    | none => exact FdwatcherTable.findFd_ne_absent hroom hfind
    | some i =>
      -- the entry is none of the live ones: both calls take it for watched
      cases c with
      | add w =>
        have hon : (WatchCall.add w).on s.table = some (.einval, s.table) :=
          FdwatcherTable.add_of_entry hfind
        obtain ⟨hfails, -⟩ := (mapLike_iff hon).1 hmap
        rcases hfails.1 (by simp) with hwatched | hmany
        · exact hmem hwatched
        · omega
      | remove w =>
        have hon : (WatchCall.remove w).on s.table = some (.success, s.table.without i) :=
          FdwatcherTable.remove_of_entry hfind
        obtain ⟨hfails, -⟩ := (mapLike_iff hon).1 hmap
        exact hfails.2 hmem rfl

/-- With no room every call fails. -/
theorem mapLike_iff_of_full (hs : s.Mapped) (hfull : 256 ≤ s.table.num) :
    s.MapLike c ↔ c.Refused s.watched := by
  -- the search ends at once, so `remove` finds nothing and `add` no free entry
  have hon : ∃ e, e ≠ Errno.success ∧ c.on s.table = some (e, s.table) := by
    cases c with
    | add w => exact ⟨.enomem, by simp, FdwatcherTable.add_of_full hfull⟩
    | remove w => exact ⟨.einval, by simp, FdwatcherTable.remove_of_full hfull⟩
  obtain ⟨e, he, hon⟩ := hon
  rw [mapLike_iff hon]
  constructor
  · rintro ⟨hfails, -⟩
    exact hfails.1 he
  · intro hrefused
    refine ⟨iff_of_true he hrefused, ?_⟩
    rw [watched_of_refused hrefused]
    exact hs.holds

/-- **The step**: a call is as with a map just when it fits. -/
theorem mapLike_iff_fits (hs : s.Mapped) : s.MapLike c ↔ s.Fits c := by
  unfold Fits
  split
  · rename_i hroom
    constructor
    · intro hmap
      by_contra hmem
      exact not_mapLike_of_unwatched hs hroom hmem hmap
    · exact mapLike_of_watched hs hroom
  · rename_i hfull
    exact mapLike_iff_of_full hs (not_lt.1 hfull)

/-- A call that fits leaves a table that is full or not as before. -/
theorem Mapped.step (hs : s.Mapped) (hfits : s.Fits c) : (s.step c).Mapped := by
  have hmap := (mapLike_iff_fits hs).2 hfits
  obtain ⟨r, hr⟩ := Option.isSome_iff_exists.1 hmap.inside
  have hnum := FdwatcherTable.on_num hr
  refine ⟨hmap.holds, ?_⟩
  rw [step_of_some hr]
  show r.2.num < 256 ↔ (c.watched s.watched).length < 256
  rw [hnum, hs.count]
  by_cases hrefused : c.Refused s.watched
  · rw [watched_of_refused hrefused]
  · -- the only call accepted is the removal of a watched file, with room
    unfold Fits at hfits
    split at hfits
    · rename_i hroom
      have hlength := hs.count.1 hroom
      refine iff_of_true hlength ?_
      cases c with
      | add w => exact absurd (Or.inl hfits) hrefused
      | remove w =>
        rw [WatchCall.watched, if_neg hrefused]
        exact lt_of_le_of_lt (List.length_filter_le _ _) hlength
    · exact absurd hfits hrefused

/-- **A run from a table that is right.** Its calls are as with a map just
when they all fit. -/
theorem calls_mapLike_iff (hs : s.Mapped) (calls : List WatchCall) :
    EachStep step MapLike s calls ↔ EachStep step Fits s calls := by
  refine eachStep_iff_of_invariant (Q := Mapped) ?_ ?_ hs
  · exact fun s c hs => mapLike_iff_fits hs
  · exact fun s c hs hfits => hs.step hfits

end Watching

/-! ## The loaded table -/

namespace FdwatcherTable

/-- The watchers go behind those that are there, in order. -/
theorem load_spec (h : t.num + ws.length ≤ 256) : (t.load ws).num = t.num + ws.length ∧
    ∀ i, (t.load ws).watchers i =
      if i.val < t.num then t.watchers i else ws.getD (i.val - t.num) (t.watchers i) := by
  induction ws generalizing t with
  | nil => simp [load]
  | cons w ws ih =>
    rw [List.length_cons] at h
    have hroom : t.num < 256 := by omega
    rw [load, dif_pos hroom]
    obtain ⟨hnum, hwatchers⟩ := ih (t := ⟨Function.update t.watchers ⟨t.num, hroom⟩ w, t.num + 1⟩)
      (by dsimp only; omega)
    refine ⟨by rw [hnum, List.length_cons]; dsimp only; omega, fun i => ?_⟩
    rw [hwatchers i]
    dsimp only
    -- an entry from before, the one loaded now, or one that is loaded later
    rcases Nat.lt_trichotomy i.val t.num with hlt | heq | hgt
    · have hne : i ≠ ⟨t.num, hroom⟩ := Fin.ne_of_val_ne hlt.ne
      rw [if_pos (by omega), if_pos hlt, Function.update_of_ne hne]
    · have hi : i = ⟨t.num, hroom⟩ := Fin.ext heq
      subst hi
      simp
    · have hne : i ≠ ⟨t.num, hroom⟩ := Fin.ne_of_val_ne hgt.ne'
      rw [if_neg (by omega), if_neg (by omega), Function.update_of_ne hne,
        show i.val - t.num = (i.val - (t.num + 1)) + 1 by omega, List.getD_cons_succ]

theorem load_num (h : ws.length ≤ 256) : (zero.load ws).num = ws.length := by
  rw [(load_spec (t := zero) (by simpa [zero] using h)).1]
  simp [zero]

theorem load_watchers (h : ws.length ≤ 256) (hi : i.val < ws.length) :
    (zero.load ws).watchers i = ws.get ⟨i, hi⟩ := by
  rw [(load_spec (t := zero) (by simpa [zero] using h)).2 i]
  simp [zero, hi]

end FdwatcherTable

namespace Watching

/-- **The table the main loop starts with** is that of its watchers, when
they are for different files. -/
theorem Mapped.load (hlength : ws.length ≤ 256) (hfiles : (ws.map Fdwatcher.fd).Nodup)
    (hused : ∀ w ∈ ws, w.fd ≠ -1) : Mapped ⟨FdwatcherTable.zero.load ws, ws⟩ := by
  -- entries that were loaded are live, since none has the file -1
  have hlive : ∀ i, (FdwatcherTable.zero.load ws).Live i ↔ i.val < ws.length := by
    intro i
    rw [FdwatcherTable.Live, FdwatcherTable.load_num hlength]
    refine and_iff_left_of_imp fun hi => ?_
    rw [FdwatcherTable.load_watchers hlength hi]
    exact hused _ (List.get_mem _ _)
  refine ⟨⟨fun w => ?_, fun i j hi hj hfd => ?_⟩, ?_⟩
  · constructor
    · intro hw
      obtain ⟨⟨k, hk⟩, rfl⟩ := List.get_of_mem hw
      have hk' : k < ws.length := hk
      exact ⟨⟨k, by omega⟩, (hlive _).2 hk, FdwatcherTable.load_watchers hlength hk⟩
    · rintro ⟨i, hi, rfl⟩
      rw [FdwatcherTable.load_watchers hlength ((hlive i).1 hi)]
      exact List.get_mem _ _
  · rw [hlive] at hi hj
    rw [FdwatcherTable.load_watchers hlength hi, FdwatcherTable.load_watchers hlength hj] at hfd
    have hinj := List.inj_on_of_nodup_map hfiles (List.get_mem ws ⟨i, hi⟩)
      (List.get_mem ws ⟨j, hj⟩) hfd
    have hval := (List.Nodup.get_inj_iff (List.Nodup.of_map _ hfiles)).1 hinj
    exact Fin.ext (Fin.mk.inj hval)
  · show (FdwatcherTable.zero.load ws).num < 256 ↔ ws.length < 256
    rw [FdwatcherTable.load_num hlength]

/-- **Calls while the main loop runs**, on the table it was given. -/
theorem loaded_calls_iff (ws : List Fdwatcher) (hlength : ws.length ≤ 256)
    (hfiles : (ws.map Fdwatcher.fd).Nodup) (hused : ∀ w ∈ ws, w.fd ≠ -1) (calls : List WatchCall) :
    EachStep step MapLike ⟨FdwatcherTable.zero.load ws, ws⟩ calls ↔
      EachStep step Fits ⟨FdwatcherTable.zero.load ws, ws⟩ calls :=
  calls_mapLike_iff (Mapped.load hlength hfiles hused) calls

/-- The table as the program starts with it, with nothing watched. -/
def start : Watching := ⟨.zero, []⟩

/-- **The table as the program starts with it is no map**: there the first
call, whatever it is, is not as with one. -/
theorem calls_from_start_iff (calls : List WatchCall) :
    EachStep step MapLike start calls ↔ calls = [] := by
  have hfits : EachStep step MapLike start calls ↔ EachStep step Fits start calls :=
    loaded_calls_iff [] (by simp) (by simp) (by simp) calls
  rw [hfits]
  cases calls with
  | nil => exact iff_of_true eachStep_nil rfl
  | cons c calls =>
    refine iff_of_false ?_ (List.cons_ne_nil c calls)
    rw [eachStep_cons]
    rintro ⟨hfits, -⟩
    cases hfits

/-- The first watcher that is added: the search for its file leaves the
table. -/
theorem addFirst_not_mapLike : ¬ EachStep step MapLike start [.add ⟨5, 1, 0⟩] := by
  rw [eachStep_cons]
  rintro ⟨hmap, -⟩
  have hsearch : FdwatcherTable.zero.findFd 5 = none := by decide +kernel
  have hinside := hmap.inside
  rw [FdwatcherTable.on_of_none (by exact hsearch)] at hinside
  cases hinside

end Watching

end Cuse

end Dmx4Linux2
