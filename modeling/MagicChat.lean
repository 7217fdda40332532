import MagicChat.Repository.Acknowledged
import MagicChat.Repository.Immutable
import MagicChat.Repository.Mirrored
import MagicChat.Repository.Participants
import MagicChat.Repository.Send
import MagicChat.Repository.Marks
import MagicChat.Repository.Decoded
import MagicChat.Registration
import MagicChat.ChatVC.Table
import MagicChat.ChatVC.Rendering
import MagicChat.ChatVC.Order
import MagicChat.ChatVC.Location
import MagicChat.ConversationsVC.Selection
import MagicChat.ConversationsVC.Alerts
import MagicChat.LocationViewController.Direction
import MagicChat.LocationViewController.Size
import MagicChat.Preview
import MagicChat.App.LiveChat
import MagicChat.App.ListedConversations
import MagicChat.App.Listing
import MagicChat.App.MarkRead
import MagicChat.App.LogOut
import MagicChat.App.Conversation
import MagicChat.Repository.Origin
import MagicChat.App.Rendered
import MagicChat.Session.Lasting
import MagicChat.Session.Registration
import MagicChat.ContatctsViewController.Users
import MagicChat.Repository.Reading
import MagicChat.Repository.Sent
import MagicChat.Whole
