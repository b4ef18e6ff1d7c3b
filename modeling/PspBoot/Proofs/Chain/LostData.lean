import PspBoot.Proofs.BlockStore.Damage
import PspBoot.Proofs.Chain.CrashConsistency

/-!
# Reading after the data file was damaged

A data file that was lost or cut while its sidecar stayed is repaired block by block, as blocks are
read.  The main statement says when that is enough: when no byte other than zero was lost of a
listed block behind which another block can be stored.  If one was, two reads show it: the first one
has the block behind stored, and the second one finds a zero.
-/

namespace PspBoot

open BlockStore

namespace DiskCache

variable {σ η : Type} {entry : CacheEntry} {content : Bytes} {inner : Source (σ × World η)}
  {V : σ × η → Prop} {s : σ × World η} {index offset : Nat}

/-- A store whose listed blocks are safe serves their content. -/
theorem serves_sparse (entry : CacheEntry) (content : Bytes) :
    Serves (fun kept => kept.Kept entry (Ledger.Sparse content)) entry.key content where
  exists_store := by
    rintro kept ⟨home, ledger, hkeeps, hsparse⟩
    obtain ⟨store, hopen, hsize, -⟩ := hsparse.exists_store
    exact ⟨store, hkeeps.store_eq.trans hopen, hsize⟩
  loadBlock := by
    rintro kept index ⟨home, ledger, hkeeps, hsparse⟩
    obtain ⟨hdata, hloaded, -⟩ := hkeeps.loadBlock index
    obtain ⟨hstill, hright⟩ := hsparse.loadBlock index
    exact ⟨⟨home, _, hloaded, hstill⟩, fun data hfound => hright data (hdata.symm.trans hfound)⟩
  saveBlock := by
    rintro kept index ⟨home, ledger, hkeeps, hsparse⟩ hinside -
    exact ⟨home, _, (hkeeps.saveBlock index _).1, hsparse.saveBlock hinside⟩

/-! ### Two reads that show a loss -/

/-- The store that lists a block which has lost a byte. -/
theorem exists_store_of_hollow
    (h : s.2.storage.Kept entry (Ledger.Hollow content index offset)) :
    ∃ store, s.2.storage.store? entry.key = some store ∧ store.grid = gridFor content.length := by
  obtain ⟨home, ledger, hkeeps, hhollow⟩ := h
  obtain ⟨store, hopen, hsize, -⟩ := hhollow.exists_store
  exact ⟨store, hkeeps.store_eq.trans hopen, congrArg gridFor hsize⟩

/-- A read in the block behind has it stored. -/
theorem readAt_behind (h : ShowsAside inner content content.length V fun _ => False)
    (hV : V (aside.get s))
    (hhollow : s.2.storage.Kept entry fun ledger =>
      ledger.Hollow content index offset ∧ ledger.file.size ≤ offset)
    (hcovers : (gridFor content.length).Covers index offset)
    (hfollowed : Ledger.Followed content.length index) :
    let t := (readAt (some entry.key) inner ((gridFor content.length).start (index + 1)) 1 s).2
    t.2.storage.Kept entry fun ledger =>
      ledger.Hollow content index offset ∧ ledger.file.HasBlock content.length index := by
  obtain ⟨home, ledger, hkeeps, hfirst, hlost⟩ := hhollow
  obtain ⟨hmissed, hsaved⟩ := hfirst.saveBlock_next hlost hcovers hfollowed
  obtain ⟨hsame, hloaded, -⟩ := hkeeps.loadBlock (index + 1)
  obtain ⟨store, hopen, hgrid⟩ := exists_store_of_hollow ⟨home, ledger, hkeeps, hfirst⟩
  have hrun := run_readAt_one inner hopen hgrid
    (BlockGrid.covers_start blockSize_ne_zero hfollowed.1)
  obtain ⟨-, hstored⟩ := fetch_of_none h hV (hsame.trans hmissed)
  intro t
  have ht : t = (fetch entry.key inner (gridFor content.length) (index + 1) s).2 := by
    simp only [t, hrun]
  rw [ht, hstored]
  exact ⟨home, _, (hloaded.saveBlock (index + 1) _).1, hsaved⟩

/-- Once the data file is long enough, what was lost reads as zero. -/
theorem readAt_hollow (inner : Source (σ × World η))
    (hhollow : s.2.storage.Kept entry fun ledger =>
      ledger.Hollow content index offset ∧ ledger.file.HasBlock content.length index)
    (hcovers : (gridFor content.length).Covers index offset) :
    (readAt (some entry.key) inner offset 1 s).1 = [0] := by
  obtain ⟨home, ledger, hkeeps, hfirst, hhas⟩ := hhollow
  obtain ⟨data, hdata, hzero⟩ := hfirst.loadBlock hhas hcovers
  obtain ⟨store, hopen, hgrid⟩ := exists_store_of_hollow ⟨home, ledger, hkeeps, hfirst⟩
  rw [run_readAt_one inner hopen hgrid hcovers,
    run_fetch_of_some ((hkeeps.loadBlock index).1.trans hdata)]
  exact BlockGrid.part_one hcovers.1 hzero

/-- Two reads of one byte: one of the block behind, and one of what was lost. -/
def probe (size index offset : Nat) : List Call :=
  [.readAt ((gridFor size).start (index + 1)) 1, .readAt offset 1]

/-- What was lost of a listed block is told wrong, once the block behind it has been stored. -/
theorem askAll_probe (h : ShowsAside inner content content.length V fun _ => False)
    (hV : V (aside.get s))
    (hhollow : s.2.storage.Kept entry fun ledger =>
      ledger.Hollow content index offset ∧ ledger.file.size ≤ offset)
    (hcovers : (gridFor content.length).Covers index offset)
    (hfollowed : Ledger.Followed content.length index) (hbyte : content[offset]? ≠ some 0) :
    ((inner.diskCached (some entry.key)).askAll (probe content.length index offset) s).1 ≠
      (probe content.length index offset).map (Call.answer content) := by
  have hwrong := readAt_hollow inner (readAt_behind h hV hhollow hcovers hfollowed) hcovers
  intro hanswers
  have hlast := (List.cons.inj (List.cons.inj hanswers).2).1
  have hdata : [0] = Bytes.slice content offset 1 := hwrong.symm.trans (Answer.bytes.inj hlast)
  apply hbyte
  have hfirst := congrArg (·[0]?) hdata
  rw [Bytes.getElem?_slice, if_pos Nat.one_pos] at hfirst
  exact hfirst.symm

end DiskCache

namespace EntryUsers

variable {η η' : Type} {entry : CacheEntry} {content : Bytes} {J : η → Prop} {J' : η' → Prop}
  {start : World η} {later : World η'} {steps : List (EntryStep η)} {inner : Layer η'}

/-- What is found of an entry after all layers over one content have been closed and the data file
has been damaged. -/
theorem damaged_run (hhost : J start.host) (hnew : start.storage.Untouched entry)
    (hsteps : ∀ next ∈ steps, Allowed entry.path (fun _ => content) J next)
    (hnone : (run entry.directory { world := start } steps).layers = [])
    (hdamage : entry.Damaged (run entry.directory { world := start } steps).world.storage.files
      later.storage.files)
    (hlater : later.storage.store? entry.key = none) :
    ∃ (home : List String) (ledger left : Ledger),
      ledger.Traced (fun _ _ => content) (Sized entry fun _ => content) ∧ ledger.store? = none ∧
        later.storage.Offers entry home left ∧ left.label? = ledger.label? ∧
          left.file.Remains ledger.file := by
  have hcustody := custody_run hhost hnew steps hsteps
  rcases hcustody.kept with huntouched | ⟨home, ledger, hkeeps, htraced⟩
  · -- There is no data file yet that could be damaged.
    have habsent := (FileTree.grows_makeDirectories _ entry.directory).absent huntouched.noData
    obtain ⟨error, herror⟩ := FileTree.bytesOf_of_absent habsent
    obtain ⟨bytes, hbytes⟩ := hdamage.exists_bytes
    cases herror.symm.trans hbytes
  · have hours : Ours entry.directory (Sized entry fun _ => content) entry.key :=
      ⟨entry.path, content.length, ⟨rfl, rfl⟩, rfl⟩
    have hclosed := hkeeps.store_eq.symm.trans (hcustody.closed hnone hours)
    obtain ⟨left, hoffers, hlabel, hremains⟩ := hkeeps.damaged hdamage hlater
    exact ⟨home, ledger, left, htraced, hclosed, hoffers, hlabel, hremains⟩

/-! ### Opening a layer on what is found -/

section

variable {home : List String} {left : Ledger} {P : inner.chain.State → Prop}

/-- A layer that is opened on what is found of an entry.  Only for an empty content there may be no
store. -/
theorem diskCached_of_offers (hoffers : later.storage.Offers entry home left)
    (hchain : inner.chain.Faultless entry.path content P J') (hstate : P inner.state)
    (hhost : J' later.host) :
    ∃ (key : Option FilePath.Key) (state : inner.chain.State) (world : World η'),
      inner.diskCached (some entry.directory) later =
        (⟨.diskCached key inner.chain, state⟩, world) ∧ (P state ∧ J' world.host) ∧
      (key = none ∧ content.length = 0 ∨ key = some entry.key ∧
        world.storage.Keeps entry home (left.openStore entry content.length).2) := by
  have hpath : inner.chain.source.locator.path = entry.path := by
    rw [Chain.locator_source]
    exact hchain.path_eq
  have hV : P inner.state ∧ J' later.host := ⟨hstate, hhost⟩
  have hcacheable := hchain.shows.faithful.cacheable (fun _ _ => True) fun _ => trivial
  obtain ⟨hvalid, hresult⟩ := hcacheable.openStore (s := (inner.state, later)) hV entry.directory
  have hsized := fun hsome => DiskCache.openStore_of_shows entry (inner.state, later) hchain.shows
    hpath hsome hV
  rw [hpath] at hresult
  rw [Layer.run_diskCached]
  generalize DiskCache.openStore entry.directory inner.chain.source (inner.state, later) = result
    at hvalid hresult hsized
  obtain ⟨key, state, world⟩ := result
  refine ⟨key, state, world, rfl, hvalid, ?_⟩
  have hopened (h : (key, world.storage) = later.storage.openStore entry content.length) :
      key = some entry.key ∧
        world.storage.Keeps entry home (left.openStore entry content.length).2 := by
    have hopens := hoffers.opens content.length
    have hkeeps := hoffers.keeps content.length
    rw [← h] at hopens hkeeps
    exact ⟨hopens, hkeeps⟩
  rcases hresult with hrefused | hstored
  · by_cases hempty : content.length = 0
    · exact .inl ⟨congrArg Prod.fst hrefused, hempty⟩
    · exact .inr (hopened (hsized hempty))
  · exact .inr (hopened hstored)

/-- If the listed blocks are safe, every answer is right. -/
theorem askAll_of_sparse (hoffers : later.storage.Offers entry home left)
    (hinner : inner.Faultless entry.path content J') (hhost : J' later.host)
    (hsparse : (left.openStore entry content.length).2.Sparse content) (calls : List Call) :
    let opened := inner.diskCached (some entry.directory) later
    (opened.1.askAll calls opened.2).1.1 = calls.map (Call.answer content) := by
  obtain ⟨P, hchain, hstate⟩ := hinner
  obtain ⟨key, state, world, hrun, hvalid, hkey⟩ := diskCached_of_offers hoffers hchain hstate hhost
  rw [hrun]
  rcases hkey with ⟨rfl, -⟩ | ⟨rfl, hkeeps⟩
  · exact (DiskCache.shows_none (P := fun _ => True) hchain.shows).askAll_eq (Nat.le_refl _) calls
      (s := (state, world)) ⟨hvalid, trivial⟩
  · have hkept : world.storage.Kept entry (Ledger.Sparse content) := ⟨home, _, hkeeps, hsparse⟩
    exact (DiskCache.shows hchain.shows (DiskCache.serves_sparse entry content)
      (Nat.min_le_right _ _)).askAll_eq (Nat.le_refl _) calls (s := (state, world)) ⟨hvalid, hkept⟩

/-- If a listed block is not, two reads show it. -/
theorem askAll_of_hollow {index offset : Nat} (hoffers : later.storage.Offers entry home left)
    (hinner : inner.Faultless entry.path content J') (hhost : J' later.host)
    (hhollow : (left.openStore entry content.length).2.Hollow content index offset)
    (hlost : (left.openStore entry content.length).2.file.size ≤ offset)
    (hcovers : (gridFor content.length).Covers index offset)
    (hfollowed : Ledger.Followed content.length index) (hbyte : content[offset]? ≠ some 0) :
    let opened := inner.diskCached (some entry.directory) later
    let calls := DiskCache.probe content.length index offset
    (opened.1.askAll calls opened.2).1.1 ≠ calls.map (Call.answer content) := by
  obtain ⟨P, hchain, hstate⟩ := hinner
  obtain ⟨key, state, world, hrun, hvalid, hkey⟩ := diskCached_of_offers hoffers hchain hstate hhost
  have hsome : content.length ≠ 0 := Nat.ne_zero_of_lt hcovers.lt_total
  rw [hrun]
  obtain ⟨rfl, hkeeps⟩ := hkey.resolve_left fun hempty => hsome hempty.2
  exact DiskCache.askAll_probe hchain.shows (s := (state, world)) hvalid
    ⟨home, _, hkeeps, hhollow, hlost⟩ hcovers hfollowed hbyte

end

/-! ### A single read of one byte -/

section

variable {index offset : Nat} {home : List String} {left : Ledger}

/-- What a layer does that is opened for a single read of one byte. -/
def visit (inner : Layer η') (size offset : Nat) : List (EntryStep η') :=
  [.attach size inner, .ask 0 (.readAt offset 1), .close 0]

/-- It leaves a sidecar file that lists the block of this byte. -/
theorem label_of_visit {data : FileId} (hoffers : later.storage.Offers entry home { data })
    (hinner : inner.Faultless entry.path content J') (hhost : J' later.host)
    (hcovers : (gridFor content.length).Covers index offset)
    (hstorable : Storable content.length index) :
    let ended := run entry.directory { world := later } (visit inner content.length offset)
    ended.layers = [] ∧ J' ended.world.host ∧ ended.world.storage.Kept entry fun ledger =>
      ledger.label? = some { path := entry.path, size := content.length, blocks := [index] } := by
  obtain ⟨P, hchain, hstate⟩ := hinner
  obtain ⟨key, state, world, hrun, hvalid, hkey⟩ := diskCached_of_offers hoffers hchain hstate hhost
  have hsome : content.length ≠ 0 := Nat.ne_zero_of_lt hcovers.lt_total
  obtain ⟨rfl, hkeeps⟩ := hkey.resolve_left fun hempty => hsome hempty.2
  -- The block is not listed yet, so it is read from the source and stored.
  obtain ⟨hmissed, hloaded, -⟩ := hkeeps.loadBlock index
  obtain ⟨⟨-, hhost'⟩, hstored⟩ := DiskCache.fetch_of_none hchain.shows (s := (state, world))
    hvalid hmissed
  obtain ⟨store, hopen, hgrid⟩ : ∃ store, world.storage.store? entry.key = some store ∧
      store.grid = gridFor content.length := ⟨_, hkeeps.store_eq, rfl⟩
  have hread := DiskCache.run_readAt_one inner.chain.source (s := (state, world)) hopen hgrid hcovers
  generalize DiskCache.fetch entry.key inner.chain.source (gridFor content.length) index
    (state, world) = fetched at hstored hhost' hread
  obtain ⟨block, state', world'⟩ := fetched
  obtain ⟨hhost'', hleft⟩ := hchain.close world' hhost'
  have hopened : step entry.directory { world := later } (.attach content.length inner) =
      ⟨world, [(content.length, ⟨.diskCached (some entry.key) inner.chain, state⟩)]⟩ := by
    rw [step, hrun]
    rfl
  have hasked : step entry.directory
      ⟨world, [(content.length, ⟨.diskCached (some entry.key) inner.chain, state⟩)]⟩
        (.ask 0 (.readAt offset 1)) =
      ⟨world', [(content.length, ⟨.diskCached (some entry.key) inner.chain, state'⟩)]⟩ := by
    change EntryUsers.mk
      (DiskCache.readAt (some entry.key) inner.chain.source offset 1 (state, world)).2.2
      [(content.length, ⟨.diskCached (some entry.key) inner.chain,
        (DiskCache.readAt (some entry.key) inner.chain.source offset 1 (state, world)).2.1⟩)] = _
    rw [hread]
  have hend : run entry.directory { world := later } (visit inner content.length offset) =
      ⟨⟨world'.storage.release entry.key, (inner.chain.close world').2.host⟩, []⟩ := by
    rw [run, visit, List.foldl_cons, hopened, List.foldl_cons, hasked, ← hleft]
    rfl
  rw [hend]
  refine ⟨rfl, hhost'', ?_⟩
  dsimp only
  rw [hstored]
  refine ⟨home, _, (hloaded.saveBlock index _).1.release.1, ?_⟩
  exact Ledger.label_of_first_block entry data (length_blockOf content index) hstorable

/-- If the data file is removed then, the byte is told wrong, unless it is zero or there is no block
behind its own. -/
theorem askAll_of_removed (hnew : later.storage.Untouched entry)
    (hopens : (later.storage.openStore entry content.length).1.isSome = true)
    (hinner : inner.Faultless entry.path content J') (hhost : J' later.host)
    (hsize : content.length < UInt64.size)
    (hcovers : (gridFor content.length).Covers index offset)
    (hfollowed : Ledger.Followed content.length index) (hbyte : content[offset]? ≠ some 0) :
    let ended := run entry.directory { world := later } (visit inner content.length offset)
    ended.layers = [] ∧ J' ended.world.host ∧ ∀ files,
      ended.world.storage.files.remove entry.dataPath = files →
        entry.Damaged ended.world.storage.files files ∧
          let opened := inner.diskCached (some entry.directory) ⟨{ files }, ended.world.host⟩
          let calls := DiskCache.probe content.length index offset
          (opened.1.askAll calls opened.2).1.1 ≠ calls.map (Call.answer content) := by
  obtain ⟨home, data, hoffers⟩ := hnew.offers hopens
  have hstorable := hfollowed.2.of_le (Nat.le_succ index) hfollowed.1
  have hvisit := label_of_visit hoffers hinner hhost hcovers hstorable
  generalize run entry.directory { world := later } (visit inner content.length offset) = ended
    at hvisit ⊢
  obtain ⟨hnone, hend, home, ledger, hkeeps, hlabel⟩ := hvisit
  refine ⟨hnone, hend, fun files hfiles => ?_⟩
  have hdamage : entry.Damaged ended.world.storage.files _ :=
    .removed hkeeps.stands.bytesOf_dataPath
  have hvacant := hkeeps.stands.remove
  rw [hfiles] at hdamage hvacant
  rw [hlabel] at hvacant
  refine ⟨hdamage, ?_⟩
  have hfound : Storage.Offers { files } entry home _ := Storage.offers_of_vacant rfl hvacant
  have hlast : ∀ n ∈ [index], n ≤ Sidecar.lastBlock content.length := by
    intro n hn
    rw [List.mem_singleton.mp hn]
    exact le_lastBlock hcovers
  obtain ⟨hhollow, hlost⟩ := Ledger.hollow_openStore hfound.closed (FileContent.remains_empty {})
    ((Ledger.mem_listed_of_label rfl hsize hlast).mpr (List.mem_singleton_self index))
    (Nat.zero_le offset)
  exact askAll_of_hollow hfound hinner hend hhollow hlost hcovers hfollowed hbyte

end

/-- **When a damaged data file only costs reads of the source.**  After layers over one content have
been closed and the data file was lost or cut, a layer that is opened over the same content gives the
right answer to every sequence of calls, unless a byte other than zero was lost of a listed block
behind which there is another block that the data file can hold. -/
theorem askAll_of_damaged_iff (hhost : J start.host) (hnew : start.storage.Untouched entry)
    (hsteps : ∀ next ∈ steps, Allowed entry.path (fun _ => content) J next)
    (hnone : (run entry.directory { world := start } steps).layers = [])
    (hdamage : entry.Damaged (run entry.directory { world := start } steps).world.storage.files
      later.storage.files)
    (hlater : later.storage.store? entry.key = none) (hhost' : J' later.host)
    (hinner : inner.Faultless entry.path content J') :
    let opened := inner.diskCached (some entry.directory) later
    (∀ calls, (opened.1.askAll calls opened.2).1.1 = calls.map (Call.answer content)) ↔
      ∀ index ∈ entry.listed later.storage.files content.length,
        ∀ offset, (gridFor content.length).Covers index offset →
          (entry.dataBytes later.storage.files).length ≤ offset → content[offset]? ≠ some 0 →
            ¬Ledger.Followed content.length index := by
  obtain ⟨home, ledger, left, htraced, hclosed, hoffers, hlabel, hremains⟩ :=
    damaged_run hhost hnew hsteps hnone hdamage hlater
  rw [hoffers.listed_eq, hoffers.dataBytes_eq, FileContent.length_toBytes]
  constructor
  · intro hright index hindex offset hcovers hlost hbyte hfollowed
    obtain ⟨hhollow, hshort⟩ := Ledger.hollow_openStore hoffers.closed hremains hindex hlost
    exact askAll_of_hollow hoffers hinner hhost' hhollow hshort hcovers hfollowed hbyte (hright _)
  · intro hsafe calls
    exact askAll_of_sparse hoffers hinner hhost'
      (Ledger.sparse_openStore htraced hclosed hlabel hoffers.closed hremains rfl hsafe) calls

/-- Nothing is lost with the data file of a content of one block. -/
theorem askAll_of_damaged_one_block :
    let entry : CacheEntry := { directory := "cache", path := "http://host/game" }
    let content : Bytes := [1, 2, 3]
    let inner : Layer Unit := .supplied (.ofContent (.ofPath entry.path) content)
    let steps : List (EntryStep Unit) := [.attach 3 inner, .ask 0 (.readAt 0 3), .close 0]
    let ended := run entry.directory { world := { host := () } } steps
    let later : World Unit :=
      { storage := { files := ended.world.storage.files.remove entry.dataPath }, host := () }
    let opened := inner.diskCached (some entry.directory) later
    0 ∈ entry.listed later.storage.files 3 ∧ entry.dataBytes later.storage.files = [] ∧
      ∀ calls, (opened.1.askAll calls opened.2).1.1 = calls.map (Call.answer content) := by
  intro entry content inner steps ended later opened
  have hnew : ({} : Storage).Untouched entry := ⟨rfl, by decide +kernel, by decide +kernel⟩
  have hfaultless : inner.Faultless entry.path content fun _ => True :=
    Layer.faultless_supplied (Source.shows_ofContent _ _ _)
  have hsteps : ∀ next ∈ steps, Allowed entry.path (fun _ => content) (fun _ => True) next := by
    intro next hnext
    simp only [steps, List.mem_cons, List.not_mem_nil, or_false] at hnext
    rcases hnext with rfl | rfl | rfl
    · exact ⟨rfl, Layer.trusted_supplied (Source.shows_ofContent _ _ 0)⟩
    · trivial
    · trivial
  have hnone : ended.layers = [] := List.eq_nil_of_length_eq_zero (by decide +kernel)
  have hwritten : entry.dataBytes ended.world.storage.files ≠ [] := by decide +kernel
  obtain ⟨bytes, hbytes⟩ := CacheEntry.exists_bytes hwritten
  refine ⟨by decide +kernel, by decide +kernel, ?_⟩
  have hdamage : entry.Damaged ended.world.storage.files later.storage.files := by
    dsimp only [later]
    exact .removed hbytes
  have hclosed : later.storage.store? entry.key = none := rfl
  have hiff := askAll_of_damaged_iff trivial hnew hsteps hnone hdamage hclosed trivial hfaultless
  refine hiff.mpr ?_
  rintro index - offset - - - ⟨hbehind, -⟩
  have hstart := (gridFor content.length).start_mono (Nat.le_add_left 1 index)
  exact absurd (Nat.lt_of_le_of_lt hstart hbehind) (by decide)

/-- With a content of two blocks the first one is read as zeros, after the last one has been read. -/
theorem askAll_of_damaged_two_blocks :
    let entry : CacheEntry := { directory := "cache", path := "http://host/game" }
    let content : Bytes := List.replicate blockSize 7 ++ [9]
    let inner : Layer Unit := .supplied (.ofContent (.ofPath entry.path) content)
    let steps : List (EntryStep Unit) :=
      [.attach content.length inner, .ask 0 (.readAt 0 1), .close 0]
    let ended := run entry.directory { world := { host := () } } steps
    let later : World Unit :=
      ⟨{ files := ended.world.storage.files.remove entry.dataPath }, ended.world.host⟩
    let opened := inner.diskCached (some entry.directory) later
    let calls : List Call := [.readAt blockSize 1, .readAt 0 1]
    inner.Faultless entry.path content (fun _ => True) ∧ ended.layers = [] ∧
      entry.Damaged ended.world.storage.files later.storage.files ∧
        (opened.1.askAll calls opened.2).1.1 ≠ calls.map (Call.answer content) := by
  intro entry content inner steps
  have hnew : (World.mk {} ()).storage.Untouched entry :=
    ⟨rfl, by decide +kernel, by decide +kernel⟩
  have hfaultless : inner.Faultless entry.path content fun _ => True :=
    Layer.faultless_supplied (Source.shows_ofContent _ _ _)
  have hsize : content.length = 65537 := by
    rw [List.length_append, List.length_replicate]
    rfl
  have hbyte : content[0]? ≠ some 0 := by
    rw [List.getElem?_append_left (by rw [List.length_replicate]; decide), List.getElem?_replicate]
    decide
  have hopens : (({} : Storage).openStore entry content.length).1.isSome = true := by
    rw [hsize]
    decide +kernel
  have hbound : content.length < UInt64.size := by
    rw [hsize]
    decide
  have hcovers : (gridFor content.length).Covers 0 0 := by
    rw [hsize]
    decide +kernel
  have hfollowed : Ledger.Followed content.length 0 := by
    rw [hsize]
    decide +kernel
  have hremoved :=
    askAll_of_removed hnew hopens hfaultless trivial hbound hcovers hfollowed hbyte
  have hsteps : visit inner content.length 0 = steps := rfl
  have hcalls : DiskCache.probe content.length 0 0 = [.readAt blockSize 1, .readAt 0 1] := by
    rw [DiskCache.probe, BlockGrid.start, Nat.zero_add, Nat.one_mul, blockSize_gridFor]
  rw [hsteps, hcalls] at hremoved
  generalize run entry.directory { world := { host := () } } steps = ended at hremoved ⊢
  obtain ⟨hnone, -, hlost⟩ := hremoved
  dsimp only
  generalize hfiles : ended.world.storage.files.remove entry.dataPath = files
  exact ⟨hfaultless, hnone, hlost files hfiles⟩

end EntryUsers

end PspBoot
