import Mathlib.Data.List.TakeWhile
import Meza.Media.Service

/-! # Object keys

    The keys of an upload as strings: the key of the file, made from the name the
    user has given it, and the keys of its thumbnails, one made in advance and two
    cut out of the file's key. `sanitizeFilename` takes the base of the path and
    then leaves characters out, which can make a special name of a harmless one. -/

namespace Meza.Media

open Store List

/-! ## Section 1: Keys -/

/-- `uploads/%s/%s/%s` -/
def ObjectKey.path (key : ObjectKey) : String :=
  "uploads/" ++ key.userID ++ "/" ++ key.attachmentID ++ "/" ++ key.name

/-- The folder of an attachment. -/
def Attachment.folder (a : Attachment) : String :=
  "uploads/" ++ a.uploaderID ++ "/" ++ a.id

/-- `strings.TrimSuffix` -/
def trimSuffix (s suffix : String) : String :=
  if suffix.toList <:+ s.toList then
    .ofList (s.toList.take (s.toList.length - suffix.toList.length))
  else s

/-- `CreateUpload` makes it for the files of the chat. -/
def encryptedThumbnailKey (a : Attachment) : String :=
  { a.objectKey with name := "thumb.enc" : ObjectKey }.path

/-- `CompleteUpload` makes it for images. -/
def completedThumbnailKey (a : Attachment) : String :=
  trimSuffix a.objectKey.path ("/" ++ a.objectKey.name) ++ "/thumb.webp"

/-- `cleanupOrphans` -/
def derivedThumbKey (a : Attachment) : String :=
  let base := .ofList (baseName a.objectKey.path.toList)
  trimSuffix a.objectKey.path ("/" ++ base) ++ "/thumb.webp"

def thumbnailKeys (a : Attachment) : List String :=
  [encryptedThumbnailKey a, completedThumbnailKey a, derivedThumbKey a]

/-! ## Section 2: What is claimed, and the condition -/

/-- The control characters of Unicode. -/
def IsControl (r : Char) : Prop := r.toNat < 32 ∨ (127 ≤ r.toNat ∧ r.toNat < 160)

/-- A name without slash (47), backslash (92), quote (34) and control characters. -/
structure CleanName (name : String) : Prop where
  nonempty : name ≠ ""
  dot : name ≠ "."
  dots : name ≠ ".."
  chars : ∀ r ∈ name.toList, r.toNat ∉ [34, 47, 92] ∧ ¬ IsControl r

/-- The key is the folder's and a name in it. -/
def LiesDirectlyIn (folder key : String) : Prop :=
  ∃ name, key = folder ++ "/" ++ name ∧ name ∉ ["", ".", ".."] ∧ ∀ r ∈ name.toList, r.toNat ≠ 47

/-- The name and the keys of an attachment are as they should be. -/
structure KeysSafe (a : Attachment) : Prop where
  name : CleanName a.objectKey.name
  directly : LiesDirectlyIn a.folder a.objectKey.path
  enc : a.objectKey.path ≠ a.folder ++ "/thumb.enc"
  webp : a.objectKey.path ≠ a.folder ++ "/thumb.webp"
  /-- No thumbnail that is written or deleted is the file. -/
  apart : a.objectKey.path ∉ thumbnailKeys a

/-- The characters that are left out. -/
def Dropped (r : Char) : Prop := r.toNat < 32 ∨ r.toNat ∈ [34, 92, 127]

instance (r : Char) : Decidable (Dropped r) := inferInstanceAs (Decidable (_ ∨ _))

/-- The last component of the path is the name, but for characters that are left out. -/
def Spells (filename name : String) : Prop :=
  (baseName filename.toList).filter (fun r => ¬ Dropped r) = name.toList

/-- There is more than slashes; the last component does not spell a special name, with the
    exception of the dot itself; and it has no control characters from 128 on. -/
structure Fit (filename : String) : Prop where
  component : filename = "" ∨ ∃ r ∈ filename.toList, r.toNat ≠ 47
  dot : Spells filename "." → baseName filename.toList = ['.']
  special : ∀ name ∈ ["..", "thumb.enc", "thumb.webp"], ¬ Spells filename name
  controls : ∀ r ∈ baseName filename.toList, ¬ (128 ≤ r.toNat ∧ r.toNat < 160)

/-! ## Section 3: The base of a path -/

theorem toNat_slash (r : Char) : r.toNat = 47 ↔ r = '/' := by
  constructor
  · intro h
    exact Char.toNat_inj.mp h
  · rintro rfl
    rfl

/-- A base is one component, or a slash where there is no component. -/
theorem baseName_cases (l : List Char) :
    (baseName l = ['/'] ∧ l ≠ [] ∧ ∀ r ∈ l, r = '/') ∨
      (baseName l ≠ [] ∧ (∀ r ∈ baseName l, r ≠ '/') ∧ (l = [] ∨ ∃ r ∈ l, r ≠ '/')) := by
  unfold baseName
  by_cases hl : l = []
  · right
    rw [if_pos hl]
    refine ⟨cons_ne_nil _ _, ?_, .inl hl⟩
    intro r hr
    rw [mem_singleton.mp hr]
    decide
  · rw [if_neg hl]
    rcases hdrop : l.reverse.dropWhile (· = '/') with _ | ⟨c, rest⟩
    · left
      have hall := dropWhile_eq_nil_iff.mp hdrop
      refine ⟨rfl, hl, ?_⟩
      intro r hr
      exact of_decide_eq_true (hall r (mem_reverse.mpr hr))
    · right
      have hc : c ≠ '/' := by
        have hhead := head?_dropWhile_not (fun r : Char => decide (r = '/')) l.reverse
        rw [hdrop] at hhead
        simpa using hhead
      have hmem : c ∈ l := by
        have hsuffix := (dropWhile_suffix (l := l.reverse) (fun r => decide (r = '/'))).subset
        rw [hdrop] at hsuffix
        exact mem_reverse.mp (hsuffix mem_cons_self)
      have htake : ((c :: rest).takeWhile (· ≠ '/')).reverse ≠ [] := by
        rw [takeWhile_cons, if_pos (decide_eq_true hc)]
        simp
      rw [if_neg htake]
      refine ⟨htake, ?_, .inr ⟨c, hmem, hc⟩⟩
      intro r hr
      have hother := mem_takeWhile_imp (mem_reverse.mp hr)
      simpa using hother

theorem baseName_append {dir name : List Char} (hne : name ≠ []) (hslash : ∀ r ∈ name, r ≠ '/') :
    baseName (dir ++ '/' :: name) = name := by
  have hreverse : (dir ++ '/' :: name).reverse = name.reverse ++ '/' :: dir.reverse := by simp
  have hkeep : (name.reverse ++ '/' :: dir.reverse).dropWhile (· = '/') =
      name.reverse ++ '/' :: dir.reverse := by
    rcases hname : name.reverse with _ | ⟨c, rest⟩
    · exact absurd (reverse_eq_nil_iff.mp hname) hne
    · have hc : c ≠ '/' := by
        refine hslash c (mem_reverse.mp ?_)
        rw [hname]
        exact mem_cons_self
      rw [cons_append, dropWhile_cons, if_neg (by simpa using hc)]
  have htake : (name.reverse ++ '/' :: dir.reverse).takeWhile (· ≠ '/') = name.reverse := by
    rw [takeWhile_append_of_pos, takeWhile_cons, if_neg (by simp), append_nil]
    intro r hr
    exact decide_eq_true (hslash r (mem_reverse.mp hr))
  unfold baseName
  rw [if_neg (by simp)]
  rw [hreverse, hkeep, htake, reverse_reverse, if_neg hne]

/-! ## Section 4: Names -/

theorem dropped_iff (r : Char) : (31 < r.toNat ∧ r.toNat ∉ [34, 92, 127]) ↔ ¬ Dropped r := by
  unfold Dropped
  rw [not_or, Nat.not_lt]
  exact and_congr_left fun _ => Nat.lt_iff_add_one_le

theorem sanitizeFilename_eq (filename : String) :
    sanitizeFilename filename =
      if baseName filename.toList = ['.'] ∨
          (baseName filename.toList).filter (fun r => ¬ Dropped r) = [] then "upload"
      else .ofList ((baseName filename.toList).filter fun r => ¬ Dropped r) := by
  unfold sanitizeFilename
  simp only [dropped_iff]

variable {filename name : String}

/-- A name that the last component spells is what is left, unless the component is a dot. -/
theorem sanitizeFilename_of_spells (h : Spells filename name) (hne : name ≠ "")
    (hdot : baseName filename.toList ≠ ['.']) :
    sanitizeFilename filename = name := by
  have hkept : (baseName filename.toList).filter (fun r => ¬ Dropped r) ≠ [] := by
    intro hnil
    rw [Spells, hnil] at h
    exact hne (String.toList_inj.mp h.symm)
  rw [sanitizeFilename_eq, if_neg (not_or.mpr ⟨hdot, hkept⟩), h, String.ofList_toList]

theorem spells_of_sanitizeFilename (hname : name ≠ "upload") (h : sanitizeFilename filename = name)
    : Spells filename name := by
  rw [sanitizeFilename_eq] at h
  split at h
  · exact absurd h.symm hname
  · unfold Spells
    rw [← h, String.toList_ofList]

theorem baseName_ne_dot (h : Spells filename name) (hname : name ≠ ".") :
    baseName filename.toList ≠ ['.'] := by
  intro hdot
  have hkept : (['.'] : List Char).filter (fun r => ¬ Dropped r) = ['.'] := by decide
  rw [Spells, hdot, hkept] at h
  exact hname (String.toList_inj.mp h.symm)

theorem cleanName_upload : CleanName "upload" := by
  refine ⟨by decide, by decide, by decide, ?_⟩
  have hchars : "upload".toList.all (fun r => 96 < r.toNat ∧ r.toNat < 127) = true := by decide
  intro r hr
  obtain ⟨hlow, hhigh⟩ := of_decide_eq_true (all_eq_true.mp hchars r hr)
  refine ⟨?_, ?_⟩
  · simp only [mem_cons, not_mem_nil, or_false]
    omega
  · unfold IsControl
    omega

/-- A clean name that is not the name of a thumbnail comes from a fitting file name only. -/
theorem fit_of_cleanName (h : CleanName (sanitizeFilename filename))
    (henc : sanitizeFilename filename ≠ "thumb.enc")
    (hwebp : sanitizeFilename filename ≠ "thumb.webp") : Fit filename where
  component := by
    rcases baseName_cases filename.toList with ⟨hbase, -, -⟩ | ⟨-, -, hempty | ⟨r, hr, hne⟩⟩
    · -- the slash itself would be the name
      exfalso
      have hspells : Spells filename "/" := by
        rw [Spells, hbase]
        decide
      have hslash := sanitizeFilename_of_spells hspells (by decide)
        (baseName_ne_dot hspells (by decide))
      have hchars := h.chars '/'
      rw [hslash] at hchars
      exact (hchars (by decide)).1 (by decide)
    · exact .inl (String.toList_inj.mp hempty)
    · exact .inr ⟨r, hr, fun hslash => hne ((toNat_slash r).mp hslash)⟩
  dot := by
    intro hspells
    by_contra hdot
    exact h.dot (sanitizeFilename_of_spells hspells (by decide) hdot)
  special := by
    intro name hname hspells
    have heq : ∀ special, Spells filename special → special ≠ "" → special ≠ "." →
        sanitizeFilename filename = special := fun special hs hne hdot =>
      sanitizeFilename_of_spells hs hne (baseName_ne_dot hs hdot)
    simp only [mem_cons, not_mem_nil, or_false] at hname
    rcases hname with rfl | rfl | rfl
    · exact h.dots (heq _ hspells (by decide) (by decide))
    · exact henc (heq _ hspells (by decide) (by decide))
    · exact hwebp (heq _ hspells (by decide) (by decide))
  controls := by
    intro r hr hcontrol
    have hstays : ¬ Dropped r := by
      unfold Dropped
      simp only [mem_cons, not_mem_nil, or_false]
      omega
    have hmem : r ∈ (baseName filename.toList).filter fun r => ¬ Dropped r :=
      mem_filter.mpr ⟨hr, decide_eq_true hstays⟩
    have hdot : baseName filename.toList ≠ ['.'] := by
      intro hdot
      rw [hdot, mem_singleton] at hr
      rw [hr] at hcontrol
      revert hcontrol
      decide
    have hchars := h.chars r
    rw [sanitizeFilename_eq, if_neg (not_or.mpr ⟨hdot, ne_nil_of_mem hmem⟩),
      String.toList_ofList] at hchars
    refine (hchars hmem).2 ?_
    unfold IsControl
    omega

theorem cleanName_of_fit (h : Fit filename) : CleanName (sanitizeFilename filename) := by
  rcases hname : decide (sanitizeFilename filename = "upload") with _ | _
  · have hother := of_decide_eq_false hname
    have hspells := spells_of_sanitizeFilename hother rfl
    refine ⟨?_, ?_, ?_, ?_⟩
    · intro hempty
      rw [sanitizeFilename_eq] at hempty hother
      split at hempty
      · exact absurd hempty (by decide)
      · next hkept =>
        have hnil := congrArg String.toList hempty
        rw [String.toList_ofList] at hnil
        exact hkept (.inr hnil)
    · intro hdot
      rw [hdot] at hspells
      rw [sanitizeFilename_eq, if_pos (Or.inl (h.dot hspells))] at hother
      exact hother rfl
    · intro hdots
      rw [hdots] at hspells
      exact h.special ".." (by decide) hspells
    · intro r hr
      rw [← hspells] at hr
      obtain ⟨hr, hstays⟩ := mem_filter.mp hr
      have hkept : ¬ Dropped r := of_decide_eq_true hstays
      have hlow := h.controls r hr
      have hslash : r.toNat ≠ 47 := by
        rcases baseName_cases filename.toList with ⟨-, hne, hall⟩ | ⟨-, hnone, -⟩
        · rcases h.component with rfl | ⟨c, hc, hnot⟩
          · exact absurd rfl hne
          · exact absurd ((toNat_slash c).mpr (hall c hc)) hnot
        · exact fun heq => hnone r hr ((toNat_slash r).mp heq)
      unfold Dropped at hkept
      unfold IsControl
      simp only [mem_cons, not_mem_nil, or_false] at hkept ⊢
      omega
  · rw [of_decide_eq_true hname]
    exact cleanName_upload

/-! ## Section 5: Keys -/

theorem trimSuffix_append (s suffix : String) : trimSuffix (s ++ suffix) suffix = s := by
  unfold trimSuffix
  rw [String.toList_append, if_pos (suffix_append _ _), length_append,
    Nat.add_sub_cancel, take_left, String.ofList_toList]

section Attachment

variable {now : Int} {attachmentID userID : ID} {req : CreateUploadRequest}

theorem path_newAttachment :
    (newAttachment now attachmentID userID req).objectKey.path =
      (newAttachment now attachmentID userID req).folder ++ ("/" ++
        sanitizeFilename req.filename) := by
  unfold ObjectKey.path Attachment.folder newAttachment
  simp only [String.append_assoc]

theorem encryptedThumbnailKey_eq :
    encryptedThumbnailKey (newAttachment now attachmentID userID req) =
      (newAttachment now attachmentID userID req).folder ++ "/thumb.enc" := by
  unfold encryptedThumbnailKey ObjectKey.path Attachment.folder newAttachment
  simp only [String.append_assoc]
  rfl

theorem completedThumbnailKey_eq :
    completedThumbnailKey (newAttachment now attachmentID userID req) =
      (newAttachment now attachmentID userID req).folder ++ "/thumb.webp" := by
  unfold completedThumbnailKey
  rw [path_newAttachment]
  show trimSuffix (_ ++ ("/" ++ sanitizeFilename req.filename))
    ("/" ++ sanitizeFilename req.filename) ++ "/thumb.webp" = _
  rw [trimSuffix_append]

/-- The cleanup cuts the folder out of the key where the name is clean. -/
theorem derivedThumbKey_eq (h : CleanName (sanitizeFilename req.filename)) :
    derivedThumbKey (newAttachment now attachmentID userID req) =
      (newAttachment now attachmentID userID req).folder ++ "/thumb.webp" := by
  have hslash : ∀ r ∈ (sanitizeFilename req.filename).toList, r ≠ '/' := by
    intro r hr heq
    exact (h.chars r hr).1 (by rw [heq]; decide)
  have hne : (sanitizeFilename req.filename).toList ≠ [] :=
    fun hnil => h.nonempty (String.toList_inj.mp hnil)
  have hbase : baseName (newAttachment now attachmentID userID req).objectKey.path.toList =
      (sanitizeFilename req.filename).toList := by
    rw [path_newAttachment, String.toList_append, String.toList_append]
    exact baseName_append hne hslash
  unfold derivedThumbKey
  rw [hbase, path_newAttachment]
  dsimp only
  rw [String.ofList_toList, trimSuffix_append]

/-- In the folder a name is its own key. -/
theorem path_eq_iff (name : String) :
    (newAttachment now attachmentID userID req).objectKey.path =
        (newAttachment now attachmentID userID req).folder ++ ("/" ++ name) ↔
      sanitizeFilename req.filename = name := by
  rw [path_newAttachment, String.append_right_inj, String.append_right_inj]

/-- The keys of an upload are safe if and only if the name of the file is fit. -/
theorem keysSafe_iff : KeysSafe (newAttachment now attachmentID userID req) ↔ Fit req.filename := by
  constructor
  · intro h
    refine fit_of_cleanName h.name ?_ ?_
    · exact fun heq => h.enc ((path_eq_iff "thumb.enc").mpr heq)
    · exact fun heq => h.webp ((path_eq_iff "thumb.webp").mpr heq)
  · intro h
    have hclean := cleanName_of_fit h
    have henc : (newAttachment now attachmentID userID req).objectKey.path ≠
        (newAttachment now attachmentID userID req).folder ++ "/thumb.enc" := by
      intro heq
      have hname := (path_eq_iff "thumb.enc").mp heq
      exact h.special "thumb.enc" (by decide) (spells_of_sanitizeFilename (by decide) hname)
    have hwebp : (newAttachment now attachmentID userID req).objectKey.path ≠
        (newAttachment now attachmentID userID req).folder ++ "/thumb.webp" := by
      intro heq
      have hname := (path_eq_iff "thumb.webp").mp heq
      exact h.special "thumb.webp" (by decide) (spells_of_sanitizeFilename (by decide) hname)
    refine ⟨hclean, ⟨sanitizeFilename req.filename, ?_, ?_, ?_⟩, henc, hwebp, ?_⟩
    · rw [path_newAttachment, String.append_assoc]
    · simp only [mem_cons, not_mem_nil, or_false, not_or]
      exact ⟨hclean.nonempty, hclean.dot, hclean.dots⟩
    · intro r hr heq
      exact (hclean.chars r hr).1 (by rw [heq]; decide)
    · unfold thumbnailKeys
      rw [encryptedThumbnailKey_eq, completedThumbnailKey_eq, derivedThumbKey_eq hclean]
      simp only [mem_cons, not_mem_nil, or_false, not_or]
      exact ⟨henc, hwebp, hwebp⟩

end Attachment

/-- The upload of a file for the chat. -/
def chatUpload (filename : String) : Attachment :=
  newAttachment 0 "a" "u"
    { filename, contentType := "application/octet-stream", sizeBytes := 1,
      purpose := .chatAttachment }

/-- A file can have the key of its own thumbnail; and a slash, or dots with a quote, a backslash
    or a control character between them, come out as a slash and as dots. -/
theorem imitations_unsafe :
    (chatUpload "thumb.enc").objectKey.path ∈ thumbnailKeys (chatUpload "thumb.enc") ∧
      (chatUpload "thumb.webp").objectKey.path ∈ thumbnailKeys (chatUpload "thumb.webp") ∧
      sanitizeFilename "//" = "/" ∧ sanitizeFilename "..\"" = ".." ∧ sanitizeFilename "\\." = "." ∧
      ∀ filename ∈ ["thumb.enc", "thumb.webp", "//", "..\"", "\\."],
        ¬ KeysSafe (chatUpload filename) := by
  refine ⟨by decide, by decide, by decide, by decide, by decide, ?_⟩
  intro filename hfilename h
  simp only [mem_cons, not_mem_nil, or_false] at hfilename
  rcases hfilename with rfl | rfl | rfl | rfl | rfl
  · exact h.enc (by decide)
  · exact h.webp (by decide)
  · exact (h.name.chars '/' (by decide)).1 (by decide)
  · exact h.name.dots (by decide)
  · exact h.name.dot (by decide)

end Meza.Media
