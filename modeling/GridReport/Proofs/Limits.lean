import GridReport.Chart.Plot
import GridReport.Proofs.Results
import GridReport.Proofs.Tallies
import GridReport.Proofs.TimeTexts
import GridReport.Proofs.TransferCounts
import GridReport.Summary.Text

/-!
How far the numbers of a chart of transfers may go.

Bins are checked up to the last timestamp but one. What comes after them is not: durations, the
middles of the bars and the texts of the peak times stop without an answer for numbers that the bins
still hold. Each of them has its own limit, and nothing else stops.

* `durations_ok_iff` — durations stop at a row that takes longer than a timestamp can say.
* `middles_ok_iff` — the middles stop where a start and an end do not add up in range.
* `alignedLines_ok_iff` — the text of two series stops at a peak too late to be written as a time.
* `histogramLines_ok` — the text of a histogram of a list of values never stops.
* `stages_stop_iff` — the stages as a whole, `durations_overflow` — a row at which they stop.
-/

namespace GridReport

/-! ### Checked integers -/

/-- A checked result is there exactly if it is in range. -/
theorem Tick.checked_ok_iff {n : Int} : (∃ m, checked n = .ok m) ↔ InRange n := by
  rw [checked]
  by_cases inside : InRange n
  · simp [inside]
  · simp [inside]

/-! ### Durations -/

/-- The time from the start to a later finish can be said by a timestamp. -/
def TransferTimes.Measurable (row : TransferTimes) : Prop :=
  ∀ started ∈ row.startedAt, ∀ finished ∈ row.finishedAt, started ≤ finished →
    finished - started ≤ Tick.greatest

namespace Transfers

section Durations

variable {row : TransferTimes} {rows : List TransferTimes}

/-- A row has a duration, or none, exactly if its difference is in range. -/
theorem duration?_ok_iff : (∃ duration, duration? row = .ok duration) ↔ row.Measurable := by
  obtain ⟨queued, started, finished⟩ := row
  cases started with
  | none => simp [duration?, TransferTimes.Measurable]
  | some started =>
      cases finished with
      | none => simp [duration?, TransferTimes.Measurable]
      | some finished =>
          by_cases forward : started ≤ finished
          · have measurable : TransferTimes.Measurable ⟨queued, some started, some finished⟩ ↔
                Tick.InRange (finished - started) := by
              have least : Tick.least ≤ finished - started := by
                simp only [Tick.least]
                omega
              simp only [TransferTimes.Measurable, Option.mem_def, Option.some.injEq, forall_eq',
                forward, true_imp_iff]
              exact ⟨fun most => ⟨least, most⟩, And.right⟩
            rw [measurable, ← Tick.checked_ok_iff]
            simp only [duration?, if_pos forward]
            cases Tick.checked (finished - started) with
            | error defect => simp [Except.map]
            | ok duration => simp [Except.map]
          · simp [duration?, TransferTimes.Measurable, forward]

theorem duration?_error {defect : Defect} (stopped : duration? row = .error defect) :
    defect = .overflow := by
  rw [duration?] at stopped
  split at stopped
  · split at stopped
    · rw [Tick.checked] at stopped
      split at stopped
      · cases stopped
      · cases stopped
        rfl
    · cases stopped
  · cases stopped

/-- Durations stop exactly at a row that takes too long, and for no other reason. -/
theorem durations_ok_iff :
    (∃ values, durations rows = .ok values) ↔ ∀ row ∈ rows, row.Measurable := by
  simp only [← duration?_ok_iff, ← mapM_ok_iff]
  rw [durations]
  cases rows.mapM duration? with
  | error defect => simp [Except.map]
  | ok found => simp [Except.map]

theorem durations_error {defect : Defect} (stopped : durations rows = .error defect) :
    defect = .overflow := by
  rw [durations] at stopped
  cases each : rows.mapM duration? with
  | ok found =>
      rw [each] at stopped
      cases stopped
  | error first =>
      rw [each] at stopped
      cases stopped
      obtain ⟨row, -, failed⟩ := mapM_eq_error each
      exact duration?_error failed

/-- Only finished transfers have one. -/
theorem length_durations {values : List Float} (done : durations rows = .ok values) :
    values.length ≤ rows.length := by
  rw [durations] at done
  cases each : rows.mapM duration? with
  | error defect =>
      rw [each] at done
      cases done
  | ok found =>
      rw [each] at done
      cases done
      rw [← (mapM_eq_ok each).1]
      exact List.length_filterMap_le _ _

end Durations

end Transfers

/-! ### Middles -/

namespace Chart

/-- The middle of a bin is worked out from the sum of its ends. -/
theorem middle_ok_iff {bin : Bin} :
    (∃ mid, middle bin = .ok mid) ↔ Tick.InRange (bin.start + bin.finish) := by
  rw [← Tick.checked_ok_iff, middle]
  cases Tick.checked (bin.start + bin.finish) with
  | error defect => simp [Except.map]
  | ok sum => simp [Except.map]

end Chart

/-! ### Peaks -/

namespace Extremum

/-- The better of two items, the later one if they are equally good. -/
theorem lastPeak_step_mem {α : Type} (measure : α → Int) {best : Option (Nat × α)}
    {pairs : List (Nat × α)} {peak : Nat × α}
    (found : pairs.foldl (fun best next =>
      match best with
      | none => some next
      | some held => if measure next.2 < measure held.2 then some held else some next)
      best = some peak) : peak ∈ pairs ∨ best = some peak := by
  induction pairs generalizing best with
  | nil => exact .inr found
  | cons next rest ih =>
      rcases ih found with later | here
      · exact .inl (List.mem_cons_of_mem _ later)
      · cases best with
        | none =>
            cases here
            exact .inl List.mem_cons_self
        | some held =>
            simp only at here
            split at here
            · exact .inr here
            · cases here
              exact .inl List.mem_cons_self

/-- The peak is an item at its place. -/
theorem getElem?_lastPeak {α : Type} {measure : α → Int} {items : List α} {peak : Nat × α}
    (found : peak ∈ lastPeak measure items) : items[peak.1]? = some peak.2 := by
  rcases lastPeak_step_mem measure found with member | absent
  · obtain ⟨pair, listed, rfl⟩ := List.mem_map.mp member
    exact List.mem_zipIdx_iff_getElem?.mp listed
  · cases absent

end Extremum

namespace SimTime

theorem render_ok_iff {seconds : Int} (natural : 0 ≤ seconds) :
    (∃ text, render seconds = .ok text) ↔ seconds ≤ longest := by
  have early : -longest ≤ seconds := Int.le_trans (by decide) natural
  rw [render_returns]
  exact and_iff_right early

end SimTime

namespace Summary.Text

theorem entry_ok {α : Type} {items : List α} {index : Nat} {item : α}
    (there : items[index]? = some item) : entry items index = .ok item := by
  rw [entry, there]

section Aligned

variable {axis : List Bin} {label : String} {weights : List Float}

/-- The lines for weights over an axis at least as long stop at no entry, but at a peak that is too
late. -/
theorem weightLines_ok_iff (long : weights.length ≤ axis.length) :
    (∃ lines, weightLines axis label weights = .ok lines) ↔
      ∀ peak ∈ Extremum.lastPeak Extremum.rank weights, ∀ bin ∈ axis[peak.1]?,
        ∃ text, SimTime.render bin.start = .ok text := by
  rw [weightLines]
  cases found : Extremum.lastPeak Extremum.rank weights with
  | none => simp [pure, Except.pure]
  | some peak =>
      obtain ⟨index, weight⟩ := peak
      obtain ⟨within, -⟩ := List.getElem?_eq_some_iff.mp (Extremum.getElem?_lastPeak found)
      have there : axis[index]? = some axis[index] := List.getElem?_eq_getElem (by omega)
      simp only [Option.mem_some_iff, forall_eq', entry_ok there, there, bind, Except.bind]
      cases SimTime.render axis[index].start with
      | error defect => simp
      | ok text => simp [pure, Except.pure]

theorem alignedLines_ok_iff {labels : String × String} {series : AlignedSeries} :
    (∃ lines, alignedLines labels series = .ok lines) ↔
      (∃ lines, weightLines series.axis labels.1 series.first = .ok lines) ∧
        ∃ lines, weightLines series.axis labels.2 series.second = .ok lines := by
  rw [alignedLines]
  cases weightLines series.axis labels.1 series.first with
  | error defect => simp [bind, Except.bind]
  | ok first =>
      cases weightLines series.axis labels.2 series.second with
      | error defect => simp [bind, Except.bind]
      | ok second => simp [bind, Except.bind, pure, Except.pure]

theorem render_ok_iff {summary : Summary} :
    (∃ text, render summary = .ok text) ↔ ∃ lines, dataLines summary.data = .ok lines := by
  rw [render]
  cases dataLines summary.data with
  | error defect => simp [bind, Except.bind]
  | ok lines => simp [bind, Except.bind, pure, Except.pure]

end Aligned

end Summary.Text

/-! ### Histograms -/

namespace Histogram

/-- A histogram of doubles is built by the same steps as any other. -/
theorem build_of_ofValues {values : List Float} {bins : Nat} {histogram : Histogram Float}
    (built : ofValues values bins = .ok histogram) : build values bins = .ok histogram := by
  rw [ofValues] at built
  cases found : build values bins with
  | error refusal =>
      rw [found] at built
      cases built
  | ok there =>
      rw [found] at built
      cases built
      rfl

end Histogram

namespace Summary.Text

/-- With one edge more than counts, the fullest bin has both of its edges. -/
theorem fullestLines_ok {histogram : Histogram Float}
    (edges : histogram.edges.length = histogram.counts.length + 1) :
    ∃ lines, fullestLines histogram = .ok lines := by
  rw [fullestLines]
  cases found : Extremum.lastPeak Int.ofNat histogram.counts with
  | none => exact ⟨[], rfl⟩
  | some peak =>
      obtain ⟨index, count⟩ := peak
      obtain ⟨within, -⟩ := List.getElem?_eq_some_iff.mp (Extremum.getElem?_lastPeak found)
      simp only at within
      have low : histogram.edges[index]? = some histogram.edges[index] :=
        List.getElem?_eq_getElem (by omega)
      have high : histogram.edges[index + 1]? = some histogram.edges[index + 1] :=
        List.getElem?_eq_getElem (by omega)
      simp only [entry_ok low, entry_ok high]
      exact ⟨_, rfl⟩

/-- The text of a histogram of no more values than can be counted is always there. -/
theorem histogramLines_ok {values : List Float} {bins : Nat} {histogram : Histogram Float}
    (built : Histogram.ofValues values bins = .ok histogram)
    (few : values.length ≤ Histogram.greatestCount) :
    ∃ lines, histogramLines histogram = .ok lines := by
  obtain ⟨low, high, tallied⟩ :=
    Histogram.tallied_of_build (Histogram.build_of_ofValues built)
  have counted : histogram.counts.sum ≤ Histogram.greatestCount := by
    rw [tallied.total]
    exact Nat.le_trans (List.length_filter_le _ _) few
  obtain ⟨fullest, there⟩ :=
    fullestLines_ok (tallied.edges.trans (congrArg (· + 1) tallied.size.symm))
  rw [histogramLines, Histogram.total_ok counted, there]
  exact ⟨_, rfl⟩

end Summary.Text

/-! ### The stages -/

namespace Transfers

open Series AlignedSeries

section Stages

variable {rows : List TransferTimes} {interval latest : Int} {series : AlignedSeries}

/-- The start of the bin that ends right after a time, and this end, do not add up to more than a
timestamp. -/
def Halved (interval time : Int) : Prop :=
  time / interval * interval + (time + 1) ≤ Tick.greatest

/-- Earlier times leave no less room. -/
theorem Halved.mono (positive : 0 < interval) {time : Int} (le : time ≤ latest)
    (halved : Halved interval latest) : Halved interval time := by
  have quotient : time / interval ≤ latest / interval := Int.ediv_le_ediv positive le
  have start := Int.mul_le_mul_of_nonneg_right quotient (Int.le_of_lt positive)
  simp only [Halved] at halved ⊢
  omega

/-- Halves are no trouble for a time that can be written. -/
theorem halved_of_short (positive : 0 < interval) (natural : 0 ≤ latest)
    (short : latest ≤ SimTime.longest) : Halved interval latest := by
  have start : latest / interval * interval ≤ latest := Int.ediv_mul_le _ (Int.ne_of_gt positive)
  simp only [Halved, Tick.greatest, SimTime.longest] at short ⊢
  omega

variable {first second : List Event}

/-- The bins of the shared axis are those of the grid up to the latest event. -/
theorem mem_axis {bin : Bin} :
    bin ∈ (shared interval latest first second).axis ↔
      ∃ i < gridSize interval latest, span interval latest i = bin := by
  simp [shared]

/-- The middles are there exactly if the last bin has one. -/
theorem middles_ok_iff (positive : 0 < interval) (natural : 0 ≤ latest) :
    (∀ bin ∈ (shared interval latest first second).axis, ∃ mid, Chart.middle bin = .ok mid) ↔
      Halved interval latest := by
  have size := gridSize_eq positive natural
  simp only [Chart.middle_ok_iff]
  constructor
  · intro each
    obtain ⟨-, most⟩ := each _ (mem_axis.mpr ⟨(latest / interval).toNat, by
      rw [gridSize]
      omega, rfl⟩)
    have last : ¬ (latest / interval).toNat + 1 < gridSize interval latest := by
      rw [gridSize]
      omega
    rw [span_finish positive natural, if_neg last] at most
    have place : ((latest / interval).toNat : Int) = latest / interval := by
      rw [gridSize] at size
      omega
    rwa [span, place] at most
  · rintro halved bin listed
    obtain ⟨i, within, rfl⟩ := mem_axis.mp listed
    obtain ⟨start, finish, most⟩ := span_inside positive natural within
    have place : (i : Int) ≤ latest / interval := by omega
    have before : (span interval latest i).start ≤ latest / interval * interval :=
      Int.mul_le_mul_of_nonneg_right place (Int.le_of_lt positive)
    simp only [Halved] at halved
    simp only [Tick.InRange, Tick.least]
    omega

/-- The lines for weights on a grid stop exactly at a peak too late to be written as a time. -/
theorem weightLines_grid_ok_iff (positive : 0 < interval) (label : String) {weights : List Float}
    (long : weights.length ≤ (shared interval latest first second).axis.length) :
    (∃ lines, Summary.Text.weightLines (shared interval latest first second).axis label weights =
        .ok lines) ↔
      ∀ peak ∈ Extremum.lastPeak Extremum.rank weights, peak.1 * interval ≤ SimTime.longest := by
  rw [Summary.Text.weightLines_ok_iff long]
  refine forall₂_congr fun peak found => ?_
  obtain ⟨within, -⟩ := List.getElem?_eq_some_iff.mp (Extremum.getElem?_lastPeak found)
  have there : (shared interval latest first second).axis[peak.1]? =
      some (span interval latest peak.1) := by
    have inside : peak.1 < gridSize interval latest := by
      simpa [shared] using Nat.lt_of_lt_of_le within long
    simp [shared, inside]
  have natural : 0 ≤ (span interval latest peak.1).start :=
    Int.mul_nonneg (Int.natCast_nonneg _) (Int.le_of_lt positive)
  simp only [there, Option.mem_some_iff, forall_eq', SimTime.render_ok_iff natural]
  rfl

/-- The text of two series on a grid is there exactly if both peaks can be written. -/
theorem text_ok_iff (positive : 0 < interval) {plot path : String} {count : Nat}
    {labels : String × String} :
    (∃ text, Summary.Text.render
        ⟨plot, path, count, .aligned labels (shared interval latest first second)⟩ = .ok text) ↔
      ∀ weights ∈ [(shared interval latest first second).first,
          (shared interval latest first second).second],
        ∀ peak ∈ Extremum.lastPeak Extremum.rank weights,
          peak.1 * interval ≤ SimTime.longest := by
  have long : (shared interval latest first second).first.length ≤
      (shared interval latest first second).axis.length := by simp [shared]
  have long' : (shared interval latest first second).second.length ≤
      (shared interval latest first second).axis.length := by simp [shared]
  rw [Summary.Text.render_ok_iff, List.forall_mem_cons, List.forall_mem_singleton,
    ← weightLines_grid_ok_iff positive labels.1 long,
    ← weightLines_grid_ok_iff positive labels.2 long']
  exact Summary.Text.alignedLines_ok_iff

/-- A peak on a grid is no later than the grid. -/
theorem peak_le (positive : 0 < interval) (natural : 0 ≤ latest) {weights : List Float}
    (size : weights.length = gridSize interval latest) {peak : Nat × Float}
    (found : peak ∈ Extremum.lastPeak Extremum.rank weights) : peak.1 * interval ≤ latest := by
  obtain ⟨within, -⟩ := List.getElem?_eq_some_iff.mp (Extremum.getElem?_lastPeak found)
  exact (lt_gridSize_iff positive natural).mp (size ▸ within)

/-- **Where the stages stop without an answer.** Durations are there exactly if no transfer takes
longer than a timestamp can say, and stop with an overflow otherwise; the text of their histogram is
then always there. Of rows that lie on an axis all bounds of bins are timestamps. The middles of the
bars are there exactly if no time is followed by an end that, with the start of its bin, adds up to
more than a timestamp; the text exactly if neither series has its peak in a bin whose start is too
late to be written as a time. So nothing stops for rows up to the longest time that can be
written. -/
theorem stages_stop_iff (rows : List TransferTimes) (interval : Int) (positive : 0 < interval) :
    ((∃ values, durations rows = .ok values) ↔ ∀ row ∈ rows, row.Measurable) ∧
    (∀ defect, durations rows = .error defect → defect = .overflow) ∧
    (rows.length ≤ Histogram.greatestCount →
      ∀ values bins histogram plot path, durations rows = .ok values →
        Histogram.ofValues values bins = .ok histogram →
          ∃ text, Summary.Text.render ⟨plot, path, rows.length, .histogram histogram⟩ =
            .ok text) ∧
    ∀ series, aligned rows interval = .ok series →
      (∀ bin ∈ series.axis, Tick.InRange bin.start ∧ Tick.InRange bin.finish) ∧
      ((∀ bin ∈ series.axis, ∃ mid, Chart.middle bin = .ok mid) ↔
        ∀ time, Occurs rows time → Halved interval time) ∧
      ∀ plot path labels,
        ((∃ text, Summary.Text.render ⟨plot, path, rows.length, .aligned labels series⟩ =
            .ok text) ↔
          ∀ weights ∈ [series.first, series.second],
            ∀ peak ∈ Extremum.lastPeak Extremum.rank weights,
              peak.1 * interval ≤ SimTime.longest) ∧
        ((∀ time, Occurs rows time → time ≤ SimTime.longest) →
          (∀ bin ∈ series.axis, ∃ mid, Chart.middle bin = .ok mid) ∧
          ∃ text, Summary.Text.render ⟨plot, path, rows.length, .aligned labels series⟩ =
            .ok text) := by
  refine ⟨durations_ok_iff, fun _ => durations_error, ?_, ?_⟩
  · intro few values bins histogram plot path done built
    exact Summary.Text.render_ok_iff.mpr
      (Summary.Text.histogramLines_ok built (Nat.le_trans (length_durations done) few))
  · intro series accepted
    obtain ⟨nonempty, fit⟩ := (aligned_ok_iff positive).mp ⟨series, accepted⟩
    obtain ⟨latest, ⟨reached, most⟩, exactly⟩ := aligned_ok positive nonempty fit
    rw [accepted] at exactly
    cases exactly
    obtain ⟨natural, below⟩ := fit latest reached
    have middles : (∀ bin ∈ (shared interval latest (queuedEvents rows) (startedEvents rows)).axis,
        ∃ mid, Chart.middle bin = .ok mid) ↔ ∀ time, Occurs rows time → Halved interval time := by
      rw [middles_ok_iff positive natural]
      exact ⟨fun halved time here => halved.mono positive (most time here),
        fun each => each latest reached⟩
    refine ⟨?_, middles, fun plot path labels => ⟨text_ok_iff positive, fun short => ?_⟩⟩
    · intro bin listed
      obtain ⟨i, within, rfl⟩ := mem_axis.mp listed
      have inside := span_inside positive natural within
      simp only [Tick.InRange, Tick.least, Tick.greatest] at below ⊢
      omega
    · have brief := short latest reached
      refine ⟨(middles_ok_iff positive natural).mpr (halved_of_short positive natural brief),
        (text_ok_iff positive).mpr fun weights listed peak found => ?_⟩
      have size : weights.length = gridSize interval latest := by
        rcases (by simpa using listed : weights = _ ∨ weights = _) with rfl | rfl
        · simp [shared]
        · simp [shared]
      exact Int.le_trans (peak_le positive natural size found) brief

/-- A transfer that takes as long as a timestamp can say, and one that never finished. -/
def longRows : List TransferTimes :=
  [⟨0, some 0, some 9223372036854775807⟩, ⟨5, some 7, none⟩]

theorem stages_stop_iff_long :
    (0 : Int) < 10 ∧ (∃ values, durations longRows = .ok values) ∧
      ∃ series, aligned longRows 10 = .ok series ∧
        ∀ bin ∈ series.axis, ∃ mid, Chart.middle bin = .ok mid := by
  have positive : (0 : Int) < 10 := by decide
  have occurs : ∀ time, Occurs longRows time → time = 0 ∨ time = 5 ∨ time = 7 := by
    rintro time ⟨row, listed, here⟩
    simp only [longRows, List.mem_cons, List.not_mem_nil, or_false] at listed
    rcases listed with rfl | rfl <;> simp at here <;> omega
  have fit : ∀ time, Occurs longRows time → Fits time := by
    intro time here
    have := occurs time here
    simp only [Fits, Tick.greatest]
    omega
  obtain ⟨series, accepted⟩ := (aligned_ok_iff positive).mpr ⟨List.cons_ne_nil _ _, fit⟩
  obtain ⟨durable, -, -, stages⟩ := stages_stop_iff longRows 10 positive
  obtain ⟨-, middles, -⟩ := stages series accepted
  refine ⟨positive, durable.mpr ?_, series, accepted, middles.mpr fun time here => ?_⟩
  · simp [longRows, TransferTimes.Measurable, Tick.greatest]
  · have := occurs time here
    simp only [Halved, Tick.greatest]
    omega

/-- A transfer that started a second before time zero and finished at the last timestamp. -/
theorem durations_overflow :
    durations [⟨0, some (-1), some 9223372036854775807⟩] = .error .overflow := by
  decide

end Stages

end Transfers

end GridReport
