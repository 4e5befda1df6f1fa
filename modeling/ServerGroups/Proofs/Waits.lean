/-
ServerGroups/Proofs/Waits.lean

The waits between the passes of a drain.

Whatever settings pass the check, every wait is longer than zero and no longer
than the longest wait (`waits_positive_and_capped`).  The waits are those that
come of the first one by multiplying again and again, and the waits of every
drain in every run of the coordinator are among them.

Where the product is no duration the wait is the longest one, so only a product
that is one could come to nothing.  A nanosecond is more than `2 ^ -30` seconds,
and no rounding takes it below: `2 ^ -30` is a double, the factor is at least
one, and `2 ^ -30` seconds are nearer to one nanosecond than to none.
-/
import ServerGroups.Proofs.Confinement
import ServerGroups.Proofs.Drains.Trail
import ServerGroups.Proofs.Rounding

namespace ServerGroups

/-! ### A nanosecond in seconds -/

namespace Duration

open Binary64

variable {d x : Duration}

/-- A thousand million, as a double. -/
theorem ofNat_nanoseconds :
    Binary64.ofNat (Nat.pow 10 9) = .finite false (10 ^ 9 * 2 ^ 23) 1051 := by decide +kernel

/-- The nanoseconds past the whole seconds, in seconds. -/
theorem atLeast_subsecond (h : 0 < d.subsecond) :
    ((Binary64.ofNat d.subsecond).div (Binary64.ofNat (Nat.pow 10 9))).AtLeast (2 ^ 1044) := by
  rw [ofNat_nanoseconds]
  refine (atLeast_one_ofNat h).div (by decide) ?_
  decide +kernel

/-- A duration longer than zero is at least `2 ^ -30` seconds. -/
theorem atLeast_toSeconds (h : 0 < d.nanoseconds) : d.toSeconds.AtLeast (2 ^ 1044) := by
  rcases Nat.eq_zero_or_pos d.subsecond with hnone | hsome
  · have hseconds : 0 < d.seconds := by
      have hparts : Nat.pow 10 9 * d.seconds + d.subsecond = d.nanoseconds :=
        Nat.div_add_mod d.nanoseconds (Nat.pow 10 9)
      refine Nat.pos_of_ne_zero fun hzero => ?_
      rw [hzero, hnone, Nat.mul_zero] at hparts
      omega
    have hfraction :
        ((Binary64.ofNat d.subsecond).div (Binary64.ofNat (Nat.pow 10 9))).AtLeast 0 := by
      rw [ofNat_nanoseconds]
      exact (atLeast_zero_ofNat _).div_zero (by decide)
    have hbound : 2 ^ 1044 ≤ one + 0 := by decide +kernel
    exact (atLeast_one_ofNat hseconds).add hfraction hbound
  · have hbound : 2 ^ 1044 ≤ 0 + 2 ^ 1044 := by decide +kernel
    exact (atLeast_zero_ofNat _).add (atLeast_subsecond hsome) hbound

theorem nanoseconds_ofNanoseconds? {n : Nat} (h : ofNanoseconds? n = some d) :
    d.nanoseconds = n := by
  unfold ofNanoseconds? at h
  split at h
  · cases h
    rfl
  · cases h

/-- What is at least `2 ^ -30` seconds is not rounded to nothing. -/
theorem pos_of_ofSeconds? {s : Binary64} (hs : s.AtLeast (2 ^ 1044)) (h : ofSeconds? s = some d) :
    0 < d.nanoseconds := by
  cases hs with
  | @finite m p hm =>
    have hd := nanoseconds_ofNanoseconds? (n := Number.roundHalfEven (m * 2 ^ p * 10 ^ 9) one)
      (by simpa only [ofSeconds?, Bool.false_eq_true, false_and, if_false, Nat.pow_eq] using h)
    have hunit : one < 2 * (2 ^ 1044 * 10 ^ 9) := by decide +kernel
    have hlarge : one < 2 * (m * 2 ^ p * 10 ^ 9) := by
      refine hunit.trans_le ?_
      gcongr
    rw [hd]
    exact Number.roundHalfEven_pos Binary64.one_pos hlarge
  | infinite => cases h

theorem min_le_right (d x : Duration) : (d.min x).nanoseconds ≤ x.nanoseconds := by
  unfold Duration.min
  split
  · assumption
  · exact le_rfl

theorem min_pos (hd : 0 < d.nanoseconds) (hx : 0 < x.nanoseconds) : 0 < (d.min x).nanoseconds := by
  unfold Duration.min
  split
  · exact hd
  · exact hx

end Duration

/-! ### The waits of some settings -/

namespace Config

variable {c : Config} {d : Duration}

theorem validate_eq_ok : c.validate = .ok () ↔ 0 < c.drainInterval.nanoseconds ∧
    c.drainInterval.nanoseconds ≤ c.maxDrainInterval.nanoseconds ∧
      (c.multiplier.isFinite && c.multiplier.atLeastOne) = true := by
  unfold validate
  split
  · next hzero => simp [hzero]
  · next hzero =>
    split
    · next hbelow => simp [hbelow]
    · next hbelow =>
      have hpos : 0 < c.drainInterval.nanoseconds := Nat.pos_of_ne_zero hzero
      split <;> simp_all

/-- The product is capped if it is a duration; else the wait is the longest one. -/
theorem nextInterval_eq (c : Config) (d : Duration) : c.nextInterval d =
    (Duration.ofSeconds? (d.toSeconds.mul c.multiplier)).elim c.maxDrainInterval
      (·.min c.maxDrainInterval) := by
  -- stated of the function, which is not applied, so that no product is computed
  have hfunction : nextInterval = fun (c : Config) (d : Duration) =>
      (Duration.ofSeconds? (d.toSeconds.mul c.multiplier)).elim c.maxDrainInterval
        (·.min c.maxDrainInterval) := by
    delta nextInterval
    funext c d
    generalize Duration.ofSeconds? (d.toSeconds.mul c.multiplier) = next
    cases next <;> rfl
  exact congrFun (congrFun hfunction c) d

/-- A wait that is not longer than the longest wait, and longer than zero. -/
structure Bounds (c : Config) (d : Duration) : Prop where
  pos : 0 < d.nanoseconds
  le_max : d.nanoseconds ≤ c.maxDrainInterval.nanoseconds

/-- The wait after a wait is in bounds. -/
theorem Bounds.next (hc : c.validate = .ok ()) (h : c.Bounds d) : c.Bounds (c.nextInterval d) := by
  obtain ⟨hpos, hmax, hfactor⟩ := validate_eq_ok.1 hc
  have hcap : 0 < c.maxDrainInterval.nanoseconds := hpos.trans_le hmax
  have hproduct : (d.toSeconds.mul c.multiplier).AtLeast (2 ^ 1044) :=
    (Duration.atLeast_toSeconds h.pos).mul (Binary64.atLeast_one_of_atLeastOne hfactor)
  rw [nextInterval_eq]
  -- all that counts of the product is that it is not too small
  generalize d.toSeconds.mul c.multiplier = s at hproduct ⊢
  cases hnext : Duration.ofSeconds? s with
  | none => exact ⟨hcap, le_rfl⟩
  | some next =>
    have hnonzero : 0 < next.nanoseconds := Duration.pos_of_ofSeconds? hproduct hnext
    exact ⟨Duration.min_pos hnonzero hcap, Duration.min_le_right _ _⟩

theorem bounds_iterate (hc : c.validate = .ok ()) (n : Nat) :
    c.Bounds (c.nextInterval^[n] c.drainInterval) := by
  induction n with
  | zero =>
    obtain ⟨hpos, hmax, -⟩ := validate_eq_ok.1 hc
    exact ⟨hpos, hmax⟩
  | succ n ih =>
    rw [Function.iterate_succ_apply']
    exact ih.next hc

/-- A wait that comes of the first one. -/
def Waits (c : Config) (d : Duration) : Prop := ∃ n, d = c.nextInterval^[n] c.drainInterval

theorem waits_first (c : Config) : c.Waits c.drainInterval := ⟨0, rfl⟩

theorem Waits.next (h : c.Waits d) : c.Waits (c.nextInterval d) := by
  obtain ⟨n, rfl⟩ := h
  exact ⟨n + 1, (Function.iterate_succ_apply' _ _ _).symm⟩

end Config

/-! ### The waits of drains -/

variable {E : Setting} {c : Config} {w w' : World} {m m' : Moment}

/-- What happens outside leaves the settings and the records of moves as they are. -/
def Setting.SparesWaits (E : Setting) : Prop := ∀ {w w' : World},
  E.outside w w' → w'.config = w.config ∧ w'.moves = w.moves

/-- The settings are some settings, and every drain waits as they say. -/
structure World.Paced (c : Config) (w : World) : Prop where
  config : w.config = c
  moves : ∀ {number : Nat} {mv : Move}, w.moves[number]? = some mv → c.Waits mv.interval

/-- Who works on a drain knows it with a wait that the settings lead to. -/
def Agent.Paced (c : Config) : Agent → Prop
  | .operation _ => True
  | .pass _ mv => c.Waits mv.interval
  | .finish _ mv => c.Waits mv.interval

/-- Every drain waits as the settings say, and who works on it knows that. -/
structure Moment.Paced (c : Config) (m : Moment) : Prop where
  world : m.world.Paced c
  running : ∀ {a : Activity}, m.running = some a → a.agent.Paced c
  waiting : ∀ a ∈ m.waiting, a.agent.Paced c

namespace World

theorem Paced.of_eq (h : w.Paced c) (hconfig : w'.config = w.config) (hmoves : w'.moves = w.moves) :
    w'.Paced c where
  config := hconfig.trans h.config
  moves hmv := h.moves (hmoves ▸ hmv)

theorem Paced.setMove (h : w.Paced c) {number : Nat} {x : Move} (hx : c.Waits x.interval) :
    (w.setMove number x).Paced c where
  config := h.config
  moves {k mv} hmv := by
    have hset : (w.moves.setIfInBounds number x)[k]? = some mv := hmv
    rw [Array.getElem?_setIfInBounds] at hset
    split at hset
    · split at hset
      · cases hset
        exact hx
      · cases hset
    · exact h.moves hset

theorem Paced.endMove (h : w.Paced c) (number : Nat) {x : Move} (hx : c.Waits x.interval)
    (ending : Ending) : (w.endMove number x ending).Paced c :=
  (h.setMove (x := { x with ending := some ending }) hx).of_eq rfl rfl

theorem Paced.finished (h : w.Paced c) (number : Nat) {x : Move} (hx : c.Waits x.interval)
    (ended : Progress Unit) : (w.finished number x ended).Paced c := by
  cases ended <;> exact h.endMove number hx _

theorem Paced.passed (h : w.Paced c) (number : Nat) {x : Move} (hx : c.Waits x.interval)
    (ended : Progress (List ServerAddress)) : (w.passed number x ended).Paced c := by
  cases ended with
  | returned pending =>
    refine h.setMove ?_
    dsimp only
    rw [h.config]
    exact hx.next
  | failed cause =>
    have hreport : (w.report (.drainFailed x.source x.target cause)).Paced c := h.of_eq rfl rfl
    exact hreport.endMove number (x := { x with phase := .failed }) hx _
  | crashed | waiting => exact h.endMove number hx _

/-- A drain starts with the first wait. -/
theorem Paced.launch (h : w.Paced c) (servers : ServerSet) (source target : String) :
    (w.launch servers source target).Paced c where
  config := h.config
  moves {number mv} hmv := by
    have hpush : (w.moves.push (Move.start w.config servers source target w.now))[number]? =
        some mv := hmv
    rw [Array.getElem?_push, h.config] at hpush
    split at hpush
    · cases hpush
      exact c.waits_first
    · exact h.moves hpush

theorem Paced.meet {q : Request} {reply : Reply q.Answer} (h : w.Paced c)
    (hm : w.meet q = (reply, w')) : w'.Paced c := by
  cases q with
  | call k => exact h.of_eq (alike_call hm).config (alike_call hm).moves
  | lock l shared holder =>
    simp only [World.meet] at hm
    split at hm <;> obtain ⟨-, rfl⟩ := Prod.mk.inj hm <;> exact h.of_eq rfl rfl
  | reserve servers target =>
    rcases meet_reserve hm with ⟨cause, -, rfl⟩ | ⟨-, reservations, -, rfl⟩
    · exact h
    · exact h.of_eq rfl rfl
  | launch servers source target =>
    obtain ⟨-, rfl⟩ := Prod.mk.inj hm
    exact h.launch servers source target
  | join k =>
    obtain ⟨rfl, -⟩ := meet_join hm
    exact h
  | note | unlock | reservations =>
    obtain ⟨-, rfl⟩ := Prod.mk.inj hm
    exact h.of_eq rfl rfl

end World

namespace Moment

theorem Paced.close (h : w.Paced c) {waiting : List Activity}
    (hwaiting : ∀ a ∈ waiting, a.agent.Paced c) {a : Agent} (ha : a.Paced c)
    (ended : Progress a.Result) : (Moment.close w waiting a ended).Paced c := by
  cases a with
  | operation o =>
    have hletGo : w.letGo.Paced c := h.of_eq rfl rfl
    refine ⟨?_, nofun, hwaiting⟩
    cases o with
    | forgetTable t => cases ended <;> exact hletGo.of_eq rfl rfl
    | _ => exact hletGo
  | pass number mv =>
    cases ended with
    | returned pending =>
      cases pending with
      | nil =>
        refine ⟨h.setMove (x := mv.settle) ha, ?_, hwaiting⟩
        rintro a ⟨⟩
        exact ha
      | cons s pending => exact ⟨h.passed number ha (.returned (s :: pending)), nofun, hwaiting⟩
    | failed cause => exact ⟨h.passed number ha (.failed cause), nofun, hwaiting⟩
    | crashed => exact ⟨h.passed number ha .crashed, nofun, hwaiting⟩
    | waiting rest => exact ⟨h.passed number ha (.waiting rest), nofun, hwaiting⟩
  | finish number mv => exact ⟨h.finished number ha ended, nofun, hwaiting⟩

theorem Paced.step (hE : E.SparesWaits) (h : m.Paced c) (hs : m.Step E m') : m'.Paced c := by
  obtain ⟨hworld, hrunning, hwaiting⟩ := h
  cases hs with
  | outside ho => exact ⟨hworld.of_eq (hE ho).1 (hE ho).2, hrunning, hwaiting⟩
  | ticks time => exact ⟨hworld.of_eq rfl rfl, hrunning, hwaiting⟩
  | begins ho =>
    refine ⟨hworld, ?_, hwaiting⟩
    rintro a ⟨⟩
    trivial
  | @drains w waiting number mv hm he =>
    have hmv : c.Waits mv.interval := hworld.moves hm
    refine ⟨hworld.setMove (x := mv.drain) hmv, ?_, hwaiting⟩
    rintro a ⟨⟩
    exact hmv
  | @answers w w' waiting agent owed request next answer hm =>
    have hagent : agent.Paced c := hrunning rfl
    refine ⟨hworld.meet hm, ?_, hwaiting⟩
    rintro a ⟨⟩
    exact hagent
  | @ends w w' waiting agent owed rest ended he =>
    have hended : w'.Paced c := hworld.of_eq he.alike.config he.alike.moves
    exact .close hended hwaiting (hrunning rfl) ended
  | @waits w waiting o owed request next hq =>
    refine ⟨hworld, nofun, fun a ha => ?_⟩
    rcases List.mem_cons.1 ha with rfl | ha
    · trivial
    · exact hwaiting a ha
  | @resumes w before activity after =>
    refine ⟨hworld, ?_, fun a ha => hwaiting a ?_⟩
    · rintro a ⟨⟩
      exact hwaiting activity (by simp)
    · simp only [List.mem_append, List.mem_cons] at ha ⊢
      tauto
  | @drops w before activity after =>
    refine ⟨hworld.of_eq rfl rfl, nofun, fun a ha => hwaiting a ?_⟩
    simp only [List.mem_append, List.mem_cons] at ha ⊢
    tauto

/-- At every moment of every run every drain waits as the settings say. -/
theorem Reaches.paced (hE : E.SparesWaits) {site : Site}
    (h : Reaches E (.still (.start c site)) m) : m.Paced c := by
  induction h with
  | refl =>
    refine ⟨⟨rfl, fun {number mv} hmv => ?_⟩, nofun, fun a ha => absurd ha List.not_mem_nil⟩
    have hnone : (#[] : Array Move)[number]? = some mv := hmv
    simp at hnone
  | tail _ hs ih => exact ih.step hE hs

end Moment

/-- **Drains wait, and never too long.**  With settings that pass the check, every wait that comes
of the first one is longer than zero and no longer than the longest wait; and in every run the wait
of every drain is one of them. -/
theorem waits_positive_and_capped (hc : c.validate = .ok ()) :
    (∀ n, 0 < (c.nextInterval^[n] c.drainInterval).nanoseconds ∧
      (c.nextInterval^[n] c.drainInterval).nanoseconds ≤ c.maxDrainInterval.nanoseconds) ∧
    ∀ {E : Setting} {site : Site} {m : Moment}, E.SparesWaits →
      Moment.Reaches E (.still (.start c site)) m →
        ∀ {number : Nat} {mv : Move}, m.world.moves[number]? = some mv →
          ∃ n, mv.interval = c.nextInterval^[n] c.drainInterval := by
  refine ⟨fun n => ?_, fun hE hreach => (hreach.paced hE).world.moves⟩
  have hbounds := Config.bounds_iterate hc n
  exact ⟨hbounds.pos, hbounds.le_max⟩

/-- One nanosecond first, and a factor that is the largest double. -/
def Config.steep : Config where
  drainInterval := ⟨1, by decide⟩
  maxDrainInterval := ⟨durationLimit - 1, by decide⟩
  multiplier := .finite false (Nat.pow 2 53 - 1) 2045

/-- With these settings a server is drained, and the first pass has been. -/
def World.stretched : World :=
  (((World.start .steep .pair).operate (.addGroup "a")).2.operate
    (.startMove {⟨"rs1", 1⟩} "a")).2.settle

theorem reaches_stretched :
    Moment.Reaches .secluded (.still (.start .steep .pair)) (.still .stretched) := by
  have hadd : Moment.Reaches .secluded (.still (.start .steep .pair))
      (.still ((World.start .steep .pair).operate (.addGroup "a")).2) :=
    Moment.reaches_operate _ _ trivial fun _ _ => trivial
  have hmove : Moment.Reaches .secluded
      (.still ((World.start .steep .pair).operate (.addGroup "a")).2)
      (.still (((World.start .steep .pair).operate (.addGroup "a")).2.operate
        (.startMove {⟨"rs1", 1⟩} "a")).2) :=
    Moment.reaches_operate _ _ trivial fun _ _ => trivial
  exact (hadd.trans hmove).trans (Moment.reaches_sleepUntil _ _ _ _)

/-- The product is no duration, so the second wait is the longest one. -/
theorem waits_positive_and_capped_steep : Config.steep.validate = .ok () ∧
    (∀ n, 0 < (Config.steep.nextInterval^[n] Config.steep.drainInterval).nanoseconds ∧
      (Config.steep.nextInterval^[n] Config.steep.drainInterval).nanoseconds ≤
        Config.steep.maxDrainInterval.nanoseconds) ∧
    ∃ mv, World.stretched.moves[0]? = some mv ∧ mv.interval = Config.steep.maxDrainInterval ∧
      ∃ n, mv.interval = Config.steep.nextInterval^[n] Config.steep.drainInterval := by
  have hc : Config.steep.validate = .ok () := by decide +kernel
  obtain ⟨hbounds, hruns⟩ := waits_positive_and_capped hc
  have hinterval : World.stretched.moves[0]?.map Move.interval =
      some Config.steep.maxDrainInterval := by decide +kernel
  obtain ⟨mv, hmv, hcap⟩ := Option.map_eq_some_iff.1 hinterval
  exact ⟨hc, hbounds, mv, hmv, hcap, hruns (False.elim ·) reaches_stretched hmv⟩

end ServerGroups
