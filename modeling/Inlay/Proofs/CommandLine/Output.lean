import Inlay.CommandLine.Run
import Inlay.Proofs.Files.Caching
import Inlay.Proofs.Files.Storage
import Inlay.Proofs.Inserts.Promptness
import Inlay.Proofs.Session.LateHooks
import Inlay.Proofs.Session.Reach
import Inlay.Proofs.Settings.Validity

set_option autoImplicit false

/-! # The output of a request

The text of a request is written by its last hook. Nothing before that touches the disk, nothing
after it can fail, and a text that cannot be written leaves the disk as it was. So the output is
written if and only if the run succeeds (`output_touched`): its settings are to be had, its document
is rendered, the text can be encoded, and the disk takes the bytes. In all other cases the run fails
and no file is changed. No run waits, for all that a request can insert is there at once.
-/

namespace Inlay

/-- The slots of a table are listed in ascending order. -/
theorem Slots.ascending {α : Type} (t : Slots α) :
    (t.toList.map Prod.fst).Pairwise (· < ·) := by
  rw [List.pairwise_map]
  exact Std.ExtTreeMap.ordered_keys_toList.imp Nat.compare_eq_lt.mp

namespace CommandLine

namespace Request

variable {r : Request} {disk : Disk} {env : Environment} {settings : Settings} {options : Options}

/-- The document of a request before anything was done with it, with no hook queued. -/
def session (r : Request) (disk : Disk) (settings : Settings) (options : Options) : Session where
  document := { r.document settings options with lateHooks := [] }
  outlet := { disk }

/-- Whether the settings of a request are to be had, and its document is rendered with them to the
given end, if no hook is queued. -/
def Ends (r : Request) (disk : Disk) (env : Environment) (options : Options) (s : Session)
    (ending : Ending RenderError Bool) : Prop :=
  ∃ settings, Settings.load disk env r.config (some r.overrides) = .ok settings ∧
    settings.options = .ok options ∧ (r.session disk settings options).render 0 = (s, ending)

theorem Ends.unique {options' : Options} {s s' : Session} {ending ending' : Ending RenderError Bool}
    (h : r.Ends disk env options s ending) (h' : r.Ends disk env options' s' ending') :
    options' = options ∧ s' = s ∧ ending' = ending := by
  obtain ⟨settings, hl, ho, hr⟩ := h
  obtain ⟨settings', hl', ho', hr'⟩ := h'
  cases hl.symm.trans hl'
  cases ho.symm.trans ho'
  cases hr.symm.trans hr'
  exact ⟨rfl, rfl, rfl⟩

/-! ## The document of a request -/

theorem document_eq (r : Request) (settings : Settings) (options : Options) :
    ∃ bindings, r.document settings options =
      { filename := some r.source, options, registry := settings.registry
        lateHooks := [Session.saving r.destination], bindings } := by
  have hset : ∀ (vs : List (String × String)) (d : Document),
      ∃ bindings, vs.foldl (fun d v => d.setVariable v.1 v.2) d = { d with bindings } := by
    intro vs
    induction vs with
    | nil => exact fun d => ⟨d.bindings, rfl⟩
    | cons v vs ih =>
        intro d
        obtain ⟨bindings, h⟩ := ih (d.setVariable v.1 v.2)
        exact ⟨bindings, h⟩
  exact hset r.bindings _

theorem session_saving (r : Request) (disk : Disk) (settings : Settings) (options : Options) :
    { document := r.document settings options, outlet := { disk } : Session } =
      (r.session disk settings options).withLate [Session.saving r.destination] := by
  obtain ⟨bindings, hd⟩ := r.document_eq settings options
  unfold session Session.withLate Document.withLate
  rw [hd]

/-- Whether a document is that of a request, with nothing done with it and no hook queued. -/
structure Prepared (r : Request) (settings : Settings) (options : Options) (d : Document) : Prop
    extends d.Fresh where
  filename : d.filename = some r.source
  options : d.options = options
  registry : d.registry = settings.registry
  loader : d.loader = fileLoader
  postHooks : d.postHooks = []

theorem session_prepared (r : Request) (disk : Disk) (settings : Settings) (options : Options) :
    r.Prepared settings options (r.session disk settings options).document := by
  obtain ⟨bindings, hd⟩ := r.document_eq settings options
  unfold session
  rw [hd]
  exact ⟨⟨rfl, rfl, rfl, rfl, rfl⟩, rfl, rfl, rfl, rfl, rfl⟩

/-- **The loader of a request may have a cache of its own.** The files of a request are loaded before
its output is written, so from one disk. All these loads, in whatever order and however often, are
answered by a loader with a new cache as by that of the document. -/
theorem document_loader_cached (r : Request) (settings : Settings) (options : Options)
    (disk : Disk) (requests : List (Path × Encoding)) :
    cachedAnswers {} disk (loads requests) =
      requests.map fun x => (r.document settings options).loader disk x.1 x.2 := by
  have hloader : (r.document settings options).loader = fileLoader :=
    (r.session_prepared disk settings options).loader
  rw [hloader]
  exact cachedAnswers_loads (fun _ => rfl) disk requests

/-! ## How requests are carried out -/

/-- What becomes of a request. -/
inductive Outcome (r : Request) (disk : Disk) (env : Environment) : Prop where
  /-- There are no settings. -/
  | unsettled {e : SettingsError}
    (hl : Settings.load disk env r.config (some r.overrides) = .error e)
    (h : r.run disk env = failure disk ["Error: " ++ e.message])
  /-- The document cannot be rendered. -/
  | failed {options : Options} {s : Session} {e : RenderError}
    (he : r.Ends disk env options s (.failed e))
    (hf : ∀ failed, e = .failedInserts failed → s.document.failed = failed)
    (h : r.run disk env =
      { exitCode := 1, outlet := { disk }, messages := lines (errorLines e) })
  /-- The document is rendered, and its text is to be written. -/
  | rendered {options : Options} {s : Session} {source text : String} {texts : List String}
    (he : r.Ends disk env options s (.returned false))
    (hl : fileLoader disk r.source options.encoding = .ok source)
    (hs : s.document.segments = texts.map .text) (ht : s.document.text = .ok text)
    (htext : text = (if options.preserveMark && source.toList.head? == some byteOrderMark then
      byteOrderMark.toString else "") ++ String.join texts)
    (hw : ∀ outlet, Outlet.write { disk } r.destination text options.encoding = .ok outlet →
      r.run disk env = { exitCode := 0, outlet, messages := lines r.successLines })
    (hn : ∀ e, Outlet.write { disk } r.destination text options.encoding = .error e →
      ∃ label, r.run disk env =
        { exitCode := 1, outlet := { disk }
          messages := lines (errorLines (.hook label e.message)) })

/-- What is read when the hooks are next is read when the rendering is complete. -/
theorem text_of_done {d : Document} {text : String} (h : d.text = .ok text) :
    { d with phase := .done }.text = .ok text := by
  obtain ⟨merged, hm, rfl⟩ := Document.exists_merged h
  exact @Document.text_of_merged { d with phase := .done } merged
    (by decide : Phase.segmentsMerged ≤ .done) hm

section Runs

variable (hl : Settings.load disk env r.config (some r.overrides) = .ok settings)
  (ho : settings.options = .ok options)

include hl ho

theorem run_returned {s : Session} {more : Bool}
    (h : ((r.session disk settings options).withLate [Session.saving r.destination]).render 0 =
      (s, .returned more)) :
    r.run disk env = { exitCode := 0, outlet := s.outlet, messages := lines r.successLines } := by
  unfold run
  rw [hl]
  dsimp only
  rw [ho]
  dsimp only
  rw [session_saving, h]

theorem run_failed {s : Session} {e : RenderError}
    (h : ((r.session disk settings options).withLate [Session.saving r.destination]).render 0 =
      (s, .failed e)) :
    r.run disk env =
      { exitCode := 1, outlet := s.outlet, messages := lines (errorLines e) } := by
  unfold run
  rw [hl]
  dsimp only
  rw [ho]
  dsimp only
  rw [session_saving, h]

/-- No insert of a request is waited for. -/
theorem fetch_ne_suspended {s s₁ : Session} {source : String} {horizon : Nat}
    (hd : r.Prepared settings options s.document)
    (ht : { s with document := s.document.install source }.tokenize = (s₁, .returned ())) :
    (s₁.fetch horizon).2 ≠ .suspended := by
  obtain ⟨source', marked, hi⟩ := s.document.install_eq source
  have htimeout : options.timeout ≠ some 0 := by
    obtain ⟨encoding, -, h⟩ := ok_of_bind ho
    cases h
    exact Settings.load_timeout hl
  obtain ⟨-, notes, htokenize⟩ := Session.tokenize_returned ht
  dsimp only at htokenize
  rw [hi] at htokenize
  have hprompt : s₁.document.Prompt := Document.tokenize_prompt
    (by rw [hd.registry]; exact settings.registry_prompt) (by rw [hd.options]; exact htimeout)
    htokenize
  have htokenized := Document.tokenize_tokenized (by exact hd.failed) htokenize
  obtain ⟨d', handed, hfetch, -⟩ :=
    hprompt.fetch_prompt htokenized s₁.outlet.disk (horizon - s₁.now)
  unfold Session.fetch
  rw [hfetch]
  by_cases hfailed : d'.failed.isEmpty
  · rw [if_pos hfailed]
    nofun
  · rw [if_neg hfailed]
    nofun

/-- A request that is rendered is to be written, and its run ends as the writing does. -/
theorem outcome_of_merged {s : Session} {source : String} {texts : List String}
    (hload : fileLoader disk r.source options.encoding = .ok source) (hout : s.outlet = { disk })
    (hs : ((r.session disk settings options).document.install source).SameHooks s.document)
    (hopts : s.document.options =
      ((r.session disk settings options).document.install source).options)
    (hp : s.document.phase = .runningHooks) (htexts : s.document.segments = texts.map .text)
    (htext : s.document.text =
      .ok (((r.session disk settings options).document.install source).mark ++ String.join texts))
    (h : ∀ hooks, ((r.session disk settings options).withLate hooks).render 0 =
      (s.withLate hooks).render 0) : r.Outcome disk env := by
  have hd := r.session_prepared disk settings options
  obtain ⟨source', marked, hi⟩ := (r.session disk settings options).document.install_eq source
  have hoptions : s.document.options = options := by
    rw [hopts, hi]
    exact hd.options
  have hpost : s.document.postHooks = [] := by
    rw [hs.post, hi]
    exact hd.postHooks
  have hmark : ((r.session disk settings options).document.install source).mark =
      if options.preserveMark && source.toList.head? == some byteOrderMark then
        byteOrderMark.toString else "" := by
    rw [Document.install_mark, hd.options]
  have hw : (s.withLate []).document.waiting = [] := by
    unfold Document.waiting
    rw [show (s.withLate []).document.postHooks = s.document.postHooks from rfl, hpost]
    rfl
  have hp' : (s.withLate []).document.phase = .runningHooks := hp
  have hdone : (s.withLate []).render 0 = _ :=
    (Session.render_of_moved (Session.advance_done hp' hw)).trans (Session.render_done rfl)
  obtain ⟨hwrite, hrefuse⟩ := @Session.render_saving 0 s r.destination _ hp hpost htext
  rw [hoptions, hout] at hwrite hrefuse
  refine @Outcome.rendered r disk env options _ source _ texts
    ⟨settings, hl, ho, (h []).trans hdone⟩ hload htexts (text_of_done htext) (by rw [hmark]) ?_ ?_
  · intro outlet hwritten
    obtain ⟨s', hr, rfl⟩ := hwrite outlet hwritten
    exact run_returned hl ho ((h _).trans hr)
  · intro e he
    obtain ⟨s', label, hr, hsame⟩ := hrefuse e he
    refine ⟨label, ?_⟩
    rw [run_failed hl ho ((h _).trans hr), hsame]

end Runs

theorem outcome (r : Request) (disk : Disk) (env : Environment) : r.Outcome disk env := by
  cases hl : Settings.load disk env r.config (some r.overrides) with
  | error e =>
      refine .unsettled hl ?_
      unfold run
      rw [hl]
  | ok settings =>
      obtain ⟨options, ho, -⟩ := (Settings.sound_of_load hl).1.options
      let s := r.session disk settings options
      have hd : r.Prepared settings options s.document := r.session_prepared _ _ _
      rcases @Session.render_unloaded 0 s hd.phase r.source hd.filename with
        ⟨e, hle, hr⟩ | ⟨source, hls, hr⟩
      · exact .failed ⟨settings, hl, ho, hr []⟩ nofun (run_failed hl ho (hr _))
      · let s₁ : Session := { s with document := s.document.install source }
        have hc : s₁.document.Consistent := hd.consistent.act
          (.install source (by rw [hd.phase]; decide))
        have hends {s' : Session} {ending : Ending RenderError Bool}
            (h : (s₁.withLate []).render 0 = (s', ending)) : r.Ends disk env options s' ending :=
          ⟨settings, hl, ho, (hr []).trans h⟩
        cases @Session.arrival 0 s₁ hc (s.document.install_phase source) with
        | @failed s' e hout hf h =>
            refine .failed (hends (h [])) hf ?_
            rw [run_failed hl ho ((hr _).trans (h _))]
            exact congrArg (fun o => ({ exitCode := 1, outlet := o, messages := _ } : Report)) hout
        | suspended ht hf =>
            exact absurd (congrArg Prod.snd hf) (fetch_ne_suspended hl ho hd ht)
        | @merged s' texts hout hs hopts hp htexts htext h =>
            have hls : fileLoader disk r.source options.encoding = .ok source := by
              rw [hd.loader, hd.options] at hls
              exact hls
            exact outcome_of_merged hl ho hls hout hs hopts hp htexts htext
              fun hooks => (hr hooks).trans (h hooks)

/-! ## What is written -/

/-- Whether a request is rendered to a text that can be encoded, and the disk takes its bytes. -/
structure Delivers (r : Request) (disk : Disk) (env : Environment) (out : Path) (options : Options)
    (s : Session) (text : String) (bytes : ByteArray) (disk' : Disk) : Prop where
  ends : r.Ends disk env options s (.returned false)
  read : s.document.text = .ok text
  encoded : options.encoding.encode text = .ok bytes
  written : disk.write out bytes = .ok disk'

theorem run_delivers {s : Session} {text : String} {bytes : ByteArray} {disk' : Disk}
    (hout : r.destination.same standardOutput = false)
    (h : r.Delivers disk env r.destination options s text bytes disk') :
    r.run disk env =
      { exitCode := 0, outlet := { disk := disk' }, messages := lines r.successLines } ∧
    ∃ source texts, fileLoader disk r.source options.encoding = .ok source ∧
      s.document.segments = texts.map .text ∧
      text = (if options.preserveMark && source.toList.head? == some byteOrderMark then
        byteOrderMark.toString else "") ++ String.join texts := by
  rcases r.outcome disk env with ⟨hl, -⟩ | ⟨he, -, -⟩ | ⟨he, hl, hs, ht, htext, hw, -⟩
  · obtain ⟨settings, hl', -⟩ := h.ends
    cases hl.symm.trans hl'
  · cases (he.unique h.ends).2.2
  · obtain ⟨rfl, rfl, -⟩ := he.unique h.ends
    cases h.read.symm.trans ht
    have hwrite : Outlet.write { disk } r.destination text options.encoding =
        .ok { disk := disk' } := by
      unfold Outlet.write
      rw [h.encoded]
      dsimp only
      rw [hout, h.written]
      rfl
    exact ⟨hw _ hwrite, _, _, hl, hs, htext⟩

theorem run_withholds (hout : r.destination.same standardOutput = false)
    (h : ∀ options s text bytes disk',
      ¬ r.Delivers disk env r.destination options s text bytes disk') :
    (r.run disk env).exitCode = 1 ∧ (r.run disk env).outlet = { disk } := by
  cases r.outcome disk env with
  | unsettled hl hr =>
      rw [hr]
      exact ⟨rfl, rfl⟩
  | failed he hf hr =>
      rw [hr]
      exact ⟨rfl, rfl⟩
  | @rendered options s source text texts he hl hs ht htext hw hn =>
      have hrefused :
          ∃ e, Outlet.write { disk } r.destination text options.encoding = .error e := by
        unfold Outlet.write
        cases hb : options.encoding.encode text with
        | error c => exact ⟨_, rfl⟩
        | ok bytes =>
            dsimp only
            rw [hout]
            cases hd : disk.write r.destination bytes with
            | error fault => exact ⟨_, rfl⟩
            | ok disk' => exact absurd ⟨he, ht, hb, hd⟩ (h options s text bytes disk')
      obtain ⟨e, hwrite⟩ := hrefused
      obtain ⟨label, hr⟩ := hn e hwrite
      rw [hr]
      exact ⟨rfl, rfl⟩

/-- A run succeeds if and only if its text is delivered. -/
theorem run_succeeds (hout : r.destination.same standardOutput = false) :
    (r.run disk env).exitCode = 0 ↔ ∃ options s text bytes disk',
      r.Delivers disk env r.destination options s text bytes disk' := by
  constructor
  · intro h
    apply Classical.byContradiction
    intro hn
    have hw := run_withholds hout fun options s text bytes disk' hd =>
      hn ⟨options, s, text, bytes, disk', hd⟩
    rw [hw.1] at h
    cases h
  · rintro ⟨options, s, text, bytes, disk', h⟩
    rw [(run_delivers hout h).1]

/-- A run that does not succeed has status 1 and changes no file. -/
theorem run_fails (hout : r.destination.same standardOutput = false)
    (h : (r.run disk env).exitCode ≠ 0) :
    (r.run disk env).exitCode = 1 ∧ (r.run disk env).outlet.disk = disk := by
  have hw := run_withholds hout fun options s text bytes disk' hd =>
    h ((run_succeeds hout).mpr ⟨options, s, text, bytes, disk', hd⟩)
  rw [hw.2]
  exact ⟨hw.1, rfl⟩

/-- The inserts that have failed are told one by one, in the order of their segments. -/
theorem run_failed_inserts {s : Session} {failed : Slots FailedInsert}
    (h : r.Ends disk env options s (.failed (.failedInserts failed))) :
    (r.run disk env).exitCode = 1 ∧ ∃ listed : List (Nat × FetchError),
      (r.run disk env).messages = lines
        (listed.map (fun x => "  segment #" ++ toString x.1 ++ ": " ++ x.2.message) ++
          ["Error: " ++ (RenderError.failedInserts failed).message]) ∧
      (listed.map Prod.fst).Pairwise (· < ·) ∧
      ∀ i e, (i, e) ∈ listed ↔ s.document.segments[i]? = some (.failed e) := by
  have hc : s.document.Consistent := by
    obtain ⟨settings, -, -, hr⟩ := h
    have hchanges :=
      (Session.reaches_render (r.session disk settings options) 0).changes
    rw [hr] at hchanges
    exact (r.session_prepared disk settings options).consistent.changes hchanges
  rcases r.outcome disk env with ⟨hl, -⟩ | ⟨he, hf, hr⟩ | ⟨he, -, -, -, -, -, -⟩
  · obtain ⟨settings, hl', -⟩ := h
    cases hl.symm.trans hl'
  · obtain ⟨-, rfl, heq⟩ := he.unique h
    cases heq
    obtain rfl := hf failed rfl
    refine ⟨by rw [hr], s.document.failed.toList.map fun x => (x.1, x.2.error), ?_, ?_, ?_⟩
    · rw [hr, List.map_map]
      rfl
    · rw [List.map_map]
      exact Slots.ascending _
    · intro i e
      rw [hc.failed_iff, Option.map_eq_some_iff, List.mem_map]
      constructor
      · rintro ⟨⟨i', failure⟩, hmem, heq⟩
        obtain ⟨rfl, rfl⟩ := Prod.mk.inj heq
        exact ⟨failure, Std.ExtTreeMap.mem_toList_iff_getElem?_eq_some.mp hmem, rfl⟩
      · rintro ⟨failure, hi, rfl⟩
        exact ⟨(i, failure), Std.ExtTreeMap.mem_toList_iff_getElem?_eq_some.mpr hi, rfl⟩
  · cases (he.unique h).2.2

end Request

/-- **The output is touched if and only if the command succeeds.** A run with a file for its output
ends with status 0 if and only if the document is rendered, its text can be encoded and the disk
takes the bytes, and then the file holds exactly these: those of the joined segments, with the mark
of the source before them if it is to be preserved. In every other case the status is 1 and the disk
is as it was; and when inserts have failed, each segment that has failed is told once, in ascending
order. -/
theorem output_touched {disk : Disk} {env : Environment} {args : List String} {r : Request}
    {out : Path} (hr : readArguments env args = .ok (.render r)) (ho : r.output = some out)
    (hout : out.same standardOutput = false) :
    let report := run disk env args
    (report.exitCode = 0 ↔ ∃ options s text bytes disk',
      r.Delivers disk env out options s text bytes disk') ∧
    (∀ options s text bytes disk', r.Delivers disk env out options s text bytes disk' →
      report.outlet.disk = disk' ∧ disk'.read out = .ok bytes ∧
      ∃ source texts, fileLoader disk r.source options.encoding = .ok source ∧
        s.document.segments = texts.map .text ∧
        text = (if options.preserveMark && source.toList.head? == some byteOrderMark then
          byteOrderMark.toString else "") ++ String.join texts) ∧
    (report.exitCode ≠ 0 → report.exitCode = 1 ∧ report.outlet.disk = disk) ∧
    ∀ options s failed, r.Ends disk env options s (.failed (.failedInserts failed)) →
      report.exitCode = 1 ∧ ∃ listed : List (Nat × FetchError),
        report.messages = Request.lines
          (listed.map (fun x => "  segment #" ++ toString x.1 ++ ": " ++ x.2.message) ++
            ["Error: " ++ (RenderError.failedInserts failed).message]) ∧
        (listed.map Prod.fst).Pairwise (· < ·) ∧
        ∀ i e, (i, e) ∈ listed ↔ s.document.segments[i]? = some (.failed e) := by
  have hrun : run disk env args = r.run disk env := by
    unfold run
    rw [hr]
  obtain rfl : r.destination = out := by
    unfold Request.destination
    rw [ho]
    rfl
  intro report
  rw [show report = r.run disk env from hrun]
  refine ⟨Request.run_succeeds hout, fun options s text bytes disk' h => ?_,
    Request.run_fails hout, fun options s failed h => Request.run_failed_inserts h⟩
  obtain ⟨hdelivered, htext⟩ := Request.run_delivers hout h
  rw [hdelivered]
  exact ⟨rfl, Disk.read_write h.written, htext⟩

/-- A disk with a document and no settings. -/
def plainDisk : Disk where
  entries := [(["a"], .file "hi".toUTF8 0)]

/-- The request to render the document to a file that is not there. -/
def plainRequest : Request where
  source := ⟨"a"⟩
  output := some ⟨"o"⟩

/-- The document of the request before anything was done with it. -/
def plainSession : Session :=
  plainRequest.session plainDisk { baseDir := ⟨"/"⟩ } { baseDir := ⟨"/"⟩ }

theorem plainRequest_ends : ∃ s,
    plainRequest.Ends plainDisk [] { baseDir := ⟨"/"⟩ } s (.returned false) ∧
      s.document.text = .ok "hi" := by
  have hload : Settings.load plainDisk [] none (some plainRequest.overrides) =
      .ok { baseDir := ⟨"/"⟩ } := by with_unfolding_all rfl
  have hfile : fileLoader plainDisk ⟨"a"⟩ .utf8 = .ok "hi" := by with_unfolding_all rfl
  have hscan : (plainSession.document.install "hi").scan = ({ segments := [.text "hi"] }, .ok ()) :=
    by with_unfolding_all rfl
  have hinstalled : plainSession.render 0 =
      { plainSession with document := plainSession.document.install "hi" }.render 0 :=
    Session.render_installed rfl (.inr ⟨rfl, ⟨"a"⟩, rfl, hfile⟩)
  have hrender := @Session.render_scan 0
    { plainSession with document := plainSession.document.install "hi" } _ ["hi"]
    (Document.install_phase _ _) rfl rfl hscan rfl rfl
  exact ⟨_, ⟨_, hload, rfl, hinstalled.trans hrender⟩, by with_unfolding_all rfl⟩

theorem plainDisk_output : let report := run plainDisk [] ["render", "a", "-o", "o"]
    report.exitCode = 0 ∧ report.outlet.disk.read ⟨"o"⟩ = .ok "hi".toUTF8 := by
  have harguments : readArguments [] ["render", "a", "-o", "o"] = .ok (.render plainRequest) := by
    with_unfolding_all rfl
  have hout : (⟨"o"⟩ : Path).same standardOutput = false := by decide +kernel
  obtain ⟨hiff, hwritten, -⟩ := @output_touched plainDisk [] _ plainRequest _ harguments rfl hout
  obtain ⟨s, hends, hread⟩ := plainRequest_ends
  have hdelivers : plainRequest.Delivers plainDisk [] ⟨"o"⟩ { baseDir := ⟨"/"⟩ } s "hi" "hi".toUTF8
      (plainDisk.put ["o"] (.file "hi".toUTF8 0)) :=
    ⟨hends, hread, rfl, by with_unfolding_all rfl⟩
  obtain ⟨hdisk, hbytes, -⟩ := hwritten _ _ _ _ _ hdelivers
  exact ⟨hiff.mpr ⟨_, _, _, _, _, hdelivers⟩, by rw [hdisk]; exact hbytes⟩

end CommandLine

end Inlay
