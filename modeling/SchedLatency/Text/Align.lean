namespace SchedLatency.Text

def spaces (n : Nat) : String := String.ofList (List.replicate n ' ')

def alignRight (width : Nat) (cell : String) : String := spaces (width-cell.length)++cell

def alignLeft (width : Nat) (cell : String) : String := cell++spaces (width-cell.length)

theorem toList_alignRight (width : Nat) (cell : String) :
    (alignRight width cell).toList=List.replicate (width-cell.length) ' '++cell.toList := by
  simp [alignRight,spaces]

theorem toList_alignLeft (width : Nat) (cell : String) :
    (alignLeft width cell).toList=cell.toList++List.replicate (width-cell.length) ' ' := by
  simp [alignLeft,spaces]

end SchedLatency.Text
